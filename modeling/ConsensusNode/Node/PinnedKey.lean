import ConsensusNode.Lib.Run
import ConsensusNode.Node.Registration

/-! # The pinned key across registrations and crashes

A run is a sequence of registrations and direct `saveConfig` calls, each of which may be stopped after any
number of steps. A ghost records what must be found: once a completed `saveConfig` has stored a key and a
node id, the pin is that id; a completed registration replaces it (`pinAfter`).

Every later `loadConfig` finds the pin (`pin_survives`) if, while there is one, no call is stopped between
truncating `config.json` and writing it, and whatever is saved keeps a key and the node id, except by a
registration that completes. The first condition is needed: `config.json` is written in place, and
`loadConfig` takes the truncated file for a node that has no configuration. -/

namespace ConsensusNode.Node

open Js Lib Lib.Run FileProg

/-! ### Runs -/

/-- An argument of `saveConfig`: an object of the language. -/
structure NodeConfig where
  fields : List (JsString × Json)
  readable : Readable (.obj fields)

inductive ConfigCall where
  | saveConfig (config : NodeConfig)
  | registerNode (r : Registration)

def ConfigCall.prog (env : NodeEnv) : ConfigCall → NodeProg (Option Json)
  | .saveConfig config => do
    Node.saveConfig (.obj config.fields)
    return none
  | .registerNode r => do
    let body ← Node.registerNode env r
    return some body

/-- A call that is stopped after some steps, unless it has ended before. -/
structure ConfigEvent where
  call : ConfigCall
  steps : ℕ

/-- The files, and the node id that the configuration must have beside a key. -/
structure PinState where
  disk : Disk StateFile Bytes
  pin : Option (Option Json)

/-- The node id that goes with the key of a configuration, both as JSON text has them; `none` if it has
no key. -/
def pinOf (config : Json) : Option (Option Json) :=
  if (nullish? ((finitize config).field? (js "orchestrator_pubkey"))).isSome then
    some ((finitize config).field? (js "node_id"))
  else none

/-- What a registration is to store: the node id of the response, and the key of the response or the
pinned one. -/
def registrationPin (env : NodeEnv) (d : Disk StateFile Bytes) (r : Registration) : Option (Option Json) :=
  let key := resolvePinnedPubkey ((configOf env (d .config)).field? (js "orchestrator_pubkey"))
    (r.body.field? (js "orchestrator_pubkey"))
  if finitize key = .null then none else some ((r.body.field? (js "node_id")).map finitize)

def ConfigCall.pin (env : NodeEnv) (d : Disk StateFile Bytes) : ConfigCall → Option (Option Json)
  | .saveConfig config => pinOf (.obj config.fields)
  | .registerNode r => registrationPin env d r

namespace ConfigEvent

variable (env : NodeEnv) (e : ConfigEvent) (d : Disk StateFile Bytes)

/-- The program and the files when the call is stopped. -/
def stopped : NodeProg (Option Json) × Disk StateFile Bytes :=
  machine.alone [] allowed e.steps (e.call.prog env, d)

/-- The call is stopped between truncating and writing the configuration. -/
def torn : Bool := isTorn (e.stopped env d).1.next

/-- The call has saved a configuration. -/
def saved : Bool := history [] allowed seeConfig e.steps (e.call.prog env, d) false && !e.torn env d

/-- The call is a registration that completes. -/
def registers : Bool :=
  match (e.stopped env d).1.result? with
  | some (some _) => true
  | _ => false

end ConfigEvent

/-- The response carries a key of its own. -/
def ConfigCall.carriesKey : ConfigCall → Bool
  | .saveConfig _ => false
  | .registerNode r => (nullish? (r.body.field? (js "orchestrator_pubkey"))).isSome

/-- The node id in the response. -/
def ConfigCall.nodeId : ConfigCall → Option Json
  | .saveConfig _ => none
  | .registerNode r => (r.body.field? (js "node_id")).map finitize

/-- Without a pin, a saved key with a node id becomes the pin. A registration that completes replaces the
node id, and if its response carries a key, the pin. -/
def pinAfter (env : NodeEnv) (s : PinState) (e : ConfigEvent) : Option (Option Json) :=
  match s.pin with
  | none => if e.saved env s.disk then (e.call.pin env s.disk).filter Option.isSome else none
  | some n =>
    if e.registers env s.disk then
      if e.call.carriesKey then e.call.pin env s.disk else some e.call.nodeId
    else some n

def pinStep (env : NodeEnv) (s : PinState) (e : ConfigEvent) : PinState :=
  ⟨(e.stopped env s.disk).2, pinAfter env s e⟩

/-- The condition on a step while there is a pin. -/
def keepsPin (env : NodeEnv) (s : PinState) (e : ConfigEvent) : Bool :=
  match s.pin with
  | none => true
  | some n => !e.torn env s.disk &&
      (!e.saved env s.disk || e.registers env s.disk || decide (e.call.pin env s.disk = some n))

/-! ### What is stored -/

/-- The configuration has a key that JSON text can hold, and this node id. -/
structure Pinned (config : Json) (n : Option Json) : Prop where
  key : ∃ k, config.field? (js "orchestrator_pubkey") = some k ∧ finitize k ≠ .null
  node_id : config.field? (js "node_id") = n

theorem finitize_ne_null {v : Json} (h : finitize v ≠ .null) : finitize (finitize v) ≠ .null := by
  rcases v with _ | b | x | s | xs | fs
  · exact h
  · exact h
  · rcases x with _ | _ | _
    · exact h
    · exact absurd rfl h
    · exact absurd rfl h
  · exact h
  · simp [finitize]
  · simp [finitize]

theorem pinned_of_pinOf {config : Json} {n : Option Json} (h : pinOf config = some n) :
    Pinned (finitize config) n := by
  unfold pinOf at h
  split_ifs at h with hk
  obtain ⟨k, hk⟩ := Option.isSome_iff_exists.mp hk
  obtain ⟨hfield, hne⟩ := nullish?_eq_some.mp hk
  refine ⟨⟨k, hfield, ?_⟩, Option.some.inj h⟩
  rw [field?_finitize] at hfield
  obtain ⟨v, -, rfl⟩ := Option.map_eq_some_iff.mp hfield
  exact finitize_ne_null hne

theorem pinned_mergedConfig {env : NodeEnv} {d : Disk StateFile Bytes} {r : Registration}
    {machine_id : JsString} {n : Option Json} (h : registrationPin env d r = some n) :
    Pinned (finitize (mergedConfig (configOf env (d .config)) r.body machine_id r.registered_at)) n := by
  unfold registrationPin at h
  simp only at h
  split_ifs at h with hk
  refine ⟨⟨_, ?_, finitize_ne_null hk⟩, ?_⟩
  · rw [field?_finitize, mergedConfig_orchestrator_pubkey]
    rfl
  · rw [field?_finitize, mergedConfig_node_id]
    exact Option.some.inj h

/-- A response without a key keeps the pinned one. -/
theorem registrationPin_of_pinned {env : NodeEnv} {d : Disk StateFile Bytes} {r : Registration}
    {n : Option Json} (h : Pinned (configOf env (d .config)) n)
    (hkey : nullish? (r.body.field? (js "orchestrator_pubkey")) = none) :
    registrationPin env d r = some ((r.body.field? (js "node_id")).map finitize) := by
  obtain ⟨k, hk, hne⟩ := h.key
  have hk0 : k ≠ .null := by
    rintro rfl
    exact hne rfl
  have hresolve : resolvePinnedPubkey ((configOf env (d .config)).field? (js "orchestrator_pubkey"))
      (r.body.field? (js "orchestrator_pubkey")) = k := by
    unfold resolvePinnedPubkey
    rw [hkey, nullish?_eq_some.mpr ⟨hk, hk0⟩]
    rfl
  unfold registrationPin
  simp only [hresolve, if_neg hne]

/-! ### One call -/

/-- A file that holds what the call is to store. -/
def Stores (env : NodeEnv) (d : Disk StateFile Bytes) (call : ConfigCall) (content : Option Bytes) : Prop :=
  ∀ n, call.pin env d = some n → Pinned (configOf env content) n

theorem stores_of_writes {env : NodeEnv} {d : Disk StateFile Bytes} {r : Registration} {content : Option Bytes}
    (h : Writes env r (d .config) content) : Stores env d (.registerNode r) content := by
  intro n hn
  obtain ⟨machine_id, rfl⟩ := h
  have hread : Readable (mergedConfig (configOf env (d .config)) r.body machine_id r.registered_at) :=
    readable_mergedConfig (readable_configOf env _) (readable_body r)
  rw [configOf_configText env hread]
  exact pinned_mergedConfig hn

theorem stores_configText (env : NodeEnv) (d : Disk StateFile Bytes) (config : NodeConfig) :
    Stores env d (.saveConfig config) (some (configText (.obj config.fields))) := by
  intro n hn
  rw [configOf_configText env config.readable]
  exact pinned_of_pinOf hn

/-- What a call does to the configuration, wherever it is stopped. -/
theorem meets_prog (env : NodeEnv) (call : ConfigCall) (d : Disk StateFile Bytes) :
    Meets [] allowed seeConfig
      (fun changed o d' => isTorn o = true ∨ (changed = false ∧ d' .config = d .config) ∨
        (changed = true ∧ Stores env d call (d' .config)))
      (fun b changed d' => (b.isSome → ∃ r, call = .registerNode r) ∧ changed = true ∧
        Stores env d call (d' .config))
      (call.prog env) false d := by
  rcases call with config | r
  · refine (meets_bind _ _ _ _).mpr (meets_saveConfig ?_ ?_ ?_)
    · exact fun o => .inr (.inl ⟨rfl, rfl⟩)
    · exact fun o d' ho => .inl ho
    · intro d' hd'
      refine ⟨fun h => absurd h (by simp), rfl, ?_⟩
      rw [hd']
      exact stores_configText env d config
  · refine (meets_bind _ _ _ _).mpr ((meets_registerNode env r d).mono ?_ ?_)
    · rintro changed o d' (ho | hd' | ⟨hc, hw⟩)
      · exact .inl ho
      · exact .inr (.inl hd')
      · exact .inr (.inr ⟨hc, stores_of_writes hw⟩)
    · rintro b changed d' ⟨-, hc, hw⟩
      exact ⟨fun _ => ⟨r, rfl⟩, hc, stores_of_writes hw⟩

/-- A call that is stopped is in the middle of writing the configuration, or has left it alone, or has
stored its own. -/
theorem stopped_cases (env : NodeEnv) (e : ConfigEvent) (d : Disk StateFile Bytes) :
    e.torn env d = true ∨
    (e.registers env d = false ∧ e.saved env d = false ∧ (e.stopped env d).2 .config = d .config) ∨
    (e.saved env d = true ∧ (e.registers env d = true → ∃ r, e.call = .registerNode r) ∧
      Stores env d e.call ((e.stopped env d).2 .config)) := by
  have hmeets := (meets_prog env e.call d).alone e.steps
  rcases ht : e.torn env d with _ | _
  swap
  · exact .inl rfl
  have hsaved : e.saved env d = history [] allowed seeConfig e.steps (e.call.prog env, d) false := by
    unfold ConfigEvent.saved
    rw [ht]
    simp
  rw [hsaved]
  rcases hres : (e.stopped env d).1.result? with _ | b
  · have hregisters : e.registers env d = false := by
      unfold ConfigEvent.registers
      rw [hres]
    rcases hmeets.stopped hres with htorn | ⟨hc, hd⟩ | ⟨hc, hs⟩
    · cases htorn.symm.trans ht
    · exact .inr (.inl ⟨hregisters, hc, hd⟩)
    · refine .inr (.inr ⟨hc, fun h => ?_, hs⟩)
      rw [hregisters] at h
      cases h
  · obtain ⟨hb, hc, hs⟩ := hmeets.returned hres
    refine .inr (.inr ⟨hc, fun h => hb ?_, hs⟩)
    unfold ConfigEvent.registers at h
    rw [hres] at h
    rcases b with _ | body
    · cases h
    · rfl

/-! ### Whole runs -/

/-- The pin is in the file. -/
def PinInv (env : NodeEnv) (s : PinState) : Prop :=
  ∀ n, s.pin = some n → Pinned (configOf env (s.disk .config)) n

theorem pinInv_step {env : NodeEnv} {s : PinState} {e : ConfigEvent} (h : PinInv env s)
    (hk : keepsPin env s e = true) : PinInv env (pinStep env s e) := by
  intro n hn
  have hn : pinAfter env s e = some n := hn
  show Pinned (configOf env ((e.stopped env s.disk).2 .config)) n
  unfold pinAfter at hn
  unfold keepsPin at hk
  rcases hpin : s.pin with _ | m
  · -- the first pin is what this call has saved
    rw [hpin] at hn
    simp only at hn
    split_ifs at hn with hsaved
    have hcall : e.call.pin env s.disk = some n := (Option.filter_eq_some_iff.mp hn).1
    have ht : e.torn env s.disk = false := by
      have := (Bool.and_eq_true_iff.mp hsaved).2
      simpa using this
    rcases stopped_cases env e s.disk with htorn | ⟨-, hno, -⟩ | ⟨-, -, hs⟩
    · rw [ht] at htorn
      cases htorn
    · rw [hno] at hsaved
      cases hsaved
    · exact hs n hcall
  · rw [hpin] at hn hk
    simp only [Bool.and_eq_true, Bool.not_eq_true', Bool.or_eq_true, decide_eq_true_eq] at hn hk
    obtain ⟨ht, hk⟩ := hk
    rcases stopped_cases env e s.disk with htorn | ⟨hreg, -, hd⟩ | ⟨hsaved, hreg, hs⟩
    · rw [ht] at htorn
      cases htorn
    · rw [hreg] at hn
      obtain rfl : m = n := by simpa using hn
      rw [hd]
      exact h m hpin
    · split_ifs at hn with hr hc
      · exact hs n hn
      · -- a response without a key keeps the one that is found
        obtain ⟨r, hr⟩ := hreg hr
        rw [hr] at hn hc
        have hnone : nullish? (r.body.field? (js "orchestrator_pubkey")) = none := by
          simpa [ConfigCall.carriesKey] using hc
        refine hs n ?_
        rw [hr, ← hn]
        exact registrationPin_of_pinned (h m hpin) hnone
      · obtain rfl : m = n := by simpa using hn
        refine hs m ?_
        rcases hk with (hno | hyes) | hcall
        · rw [hsaved] at hno
          cases hno
        · exact absurd hyes hr
        · exact hcall

/-- **The pin survives crashes.** From any files, over any sequence of registrations and `saveConfig`
calls, each stopped after any number of steps: if the steps keep the pin, `loadConfig` returns a
configuration with a key and the pinned node id. -/
theorem pin_survives (env : NodeEnv) (d : Disk StateFile Bytes) (es : List ConfigEvent)
    (hk : Steps (pinStep env) (fun _ s e => keepsPin env s e = true) ⟨d, none⟩ es) (n : Option Json)
    (hn : (run (pinStep env) ⟨d, none⟩ es).pin = some n) :
    ∃ config key, machine.alone [] allowed 3 (loadConfig env, (run (pinStep env) ⟨d, none⟩ es).disk) =
        (.ret config, (run (pinStep env) ⟨d, none⟩ es).disk) ∧
      config.field? (js "orchestrator_pubkey") = some key ∧ key ≠ .null ∧
      config.field? (js "node_id") = n := by
  have hstart : PinInv env ⟨d, none⟩ := by
    intro m hm
    cases hm
  have hinv := run_induct (J := fun _ s => PinInv env s) hstart
    (fun pre e h hc => pinInv_step h hc) hk
  obtain ⟨⟨key, hkey, hne⟩, hnode⟩ := hinv n hn
  refine ⟨_, key, loadConfig_alone env _, hkey, ?_, hnode⟩
  rintro rfl
  exact hne rfl

namespace Sample

def env : NodeEnv where
  NODE_PORT := none
  CONSENSUS_NODE_INSTALL_DIR := none
  stateDir := js "/state"
  machineRegistryPath := js "/machine/machine.json"
  cwd := js "/"

def orchestratorJwk : Json :=
  .obj [(js "kty", .str (js "OKP")), (js "crv", .str (js "Ed25519")), (js "x", .str (js "6kpsY"))]

theorem readable_orchestratorJwk : Readable orchestratorJwk := by
  refine readable_obj_iff.mpr ⟨by decide, ordered_iff_keys.mpr (by decide), ?_⟩
  simp [readable_str]

/-- A configuration with a node id and a key. -/
def pinnedConfig : NodeConfig where
  fields := [(js "node_id", .str (js "node-1")), (js "orchestrator_pubkey", orchestratorJwk)]
  readable := by
    refine readable_obj_iff.mpr ⟨by decide, ordered_iff_keys.mpr (by decide), ?_⟩
    simp [readable_str, readable_orchestratorJwk]

/-- A registration whose response carries no key. -/
def keyless : Registration where
  ready := true
  answer := some (200, stringify (.obj [(js "success", .bool true), (js "node_id", .str (js "node-1"))]))
  registered_at := js "2025-01-01T00:00:00.000Z"
  asserting := ⟨js "machine-1", js "2025-01-01T00:00:00.000Z", 1⟩
  claiming := ⟨js "machine-2", js "2025-01-01T00:00:00.001Z", 2⟩
  saving := ⟨js "machine-3", js "2025-01-01T00:00:00.002Z", 3⟩

/-- The key is pinned, and the node registers again. -/
def pinnedThenKeyless : List ConfigEvent := [⟨.saveConfig pinnedConfig, 5⟩, ⟨.registerNode keyless, 18⟩]

theorem pinnedThenKeyless_survives :
    ∃ config key, machine.alone [] allowed 3
        (loadConfig env, (run (pinStep env) ⟨fun _ => none, none⟩ pinnedThenKeyless).disk) =
          (.ret config, (run (pinStep env) ⟨fun _ => none, none⟩ pinnedThenKeyless).disk) ∧
      config.field? (js "orchestrator_pubkey") = some key ∧ key ≠ .null ∧
      config.field? (js "node_id") = some (.str (js "node-1")) :=
  pin_survives env (fun _ => none) pinnedThenKeyless (by decide +kernel) _ (by decide +kernel)

/-- The same, but the first registration stops when it has truncated the configuration. -/
def truncatedThenKeyless : List ConfigEvent :=
  [⟨.saveConfig pinnedConfig, 5⟩, ⟨.registerNode keyless, 12⟩, ⟨.registerNode keyless, 18⟩]

/-- The pin is still due, but `loadConfig` finds no key after the second registration. -/
theorem truncated_loses_key :
    (run (pinStep env) ⟨fun _ => none, none⟩ truncatedThenKeyless).pin =
        some (some (.str (js "node-1"))) ∧
      (machine.alone [] allowed 3
        (loadConfig env, (run (pinStep env) ⟨fun _ => none, none⟩ truncatedThenKeyless).disk)).1.result?.map
          (·.field? (js "orchestrator_pubkey")) = some (some .null) := by
  decide +kernel

end Sample

end ConsensusNode.Node
