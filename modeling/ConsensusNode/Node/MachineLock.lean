import ConsensusNode.Lib.Run
import ConsensusNode.Node.PinnedKey

/-! # One node for a machine

Two processes with state directories of their own run `registerNode` on one machine registry; every file
operation of one of them is a step.

* `Enters`: a program that only looks at files until it reads the registry, and throws if it finds another
  node there.
* `one_node`: in a run in which the second process to load the registry finds that the first one has saved its
  claim, or has ended without a node id, at most one of the two configurations ever has a node id.

The configuration is saved before the claim. Two processes that have both loaded the registry before either
of them claims it both save a node id, and the one whose claim is refused leaves its configuration behind. -/

namespace ConsensusNode.Node

open Js Lib Lib.Run FileProg

/-! ### Two processes -/

/-- The files of two processes: the machine registry with its directory, and the files of each. -/
inductive MachineFile where
  | machineDir
  | machine
  | own (process : Bool) (file : StateFile)
deriving DecidableEq

/-- The file of one process; the name of a temporary file has the number of the process in it. -/
def fileOf (i : Bool) : StateFile → MachineFile
  | .machineDir => .machineDir
  | .machine => .machine
  | file => .own i file

abbrev MachineProg := FileProg MachineFile Bytes JsString JsError Json

/-- What each of the two processes is given. -/
structure Registrant where
  env : NodeEnv
  registration : Registration

variable (who : Bool → Registrant)

def registrant (i : Bool) : MachineProg :=
  (registerNode (who i).env (who i).registration).mapFiles (fileOf i)

structure MachineState where
  world : World MachineFile Bytes Bool MachineProg
  /-- The process has loaded the registry for its first check. -/
  loaded : Bool → Bool := fun _ => false

/-- The next operation reads the registry. -/
def readsRegistry (p : MachineProg) : Bool :=
  match p.next with
  | some (.read .machine) => true
  | _ => false

variable (deny : FsOp MachineFile Bytes → Option JsString)

def machineStep (s : MachineState) (i : Bool) : MachineState where
  world := s.world.step machine [] deny i
  loaded := Function.update s.loaded i (s.loaded i || readsRegistry (s.world.procs i))

/-- Both processes start. -/
def machineStart (d : Disk MachineFile Bytes) : MachineState where
  world := ⟨d, registrant who⟩

/-! ### What the files hold -/

/-- The configuration of the process has a node id. -/
def hasNode (d : Disk MachineFile Bytes) (i : Bool) : Bool :=
  Json.truthy ((configOf (who i).env (d (.own i .config))).field? (js "node_id"))

/-- The registry has a node, with the state directory of the process. -/
def claimedBy (i : Bool) (content : Option Bytes) : Bool :=
  match content.bind fun raw => parse (decodeUtf8 raw) with
  | none => false
  | some v => isText (textField v (js "node_id")) &&
      decide (textField v (js "state_dir") = some (normalizeDir (who i).env (who i).env.stateDir))

/-- **The condition.** When a process loads the registry for its first check, the other one has not loaded it
yet, or has saved its claim, or has ended without a node id. -/
def LoadsApart (s : MachineState) (i : Bool) : Prop :=
  readsRegistry (s.world.procs i) = true → s.loaded i = false → s.loaded (!i) = false ∨
    claimedBy who (!i) (s.world.disk .machine) = true ∨
    (s.world.procs (!i)).next.isNone = true ∧ hasNode who s.world.disk (!i) = false

instance (s : MachineState) (i : Bool) : Decidable (LoadsApart who s i) := by
  unfold LoadsApart
  infer_instance

/-! ### A process that has not loaded the registry -/

section Enters

variable {κ β ε χ ρ τ : Type} (q : κ)

/-- Whatever the answers, the program only looks at files, and not at `q`. -/
def Glances : FileProg κ β ε χ ρ → Prop
  | .op o k => o ≠ .read q ∧ o.Looks ∧ ∀ a, Glances (k a)
  | _ => True

/-- Whatever the answers, the program only looks at files until it reads `q`, and if it finds there what
`stops` it, or cannot read it, it throws. -/
def Enters (stops : β → Prop) : FileProg κ β ε χ ρ → Prop
  | .op o k => (o = .read q ∧ (∀ b, stops b → ∃ e, k (.data b) = .thrown e) ∧
        ∀ code, ∃ e, k (.denied code) = .thrown e) ∨
      (o ≠ .read q ∧ o.Looks ∧ ∀ a, Enters stops (k a))
  | _ => True

variable {q} {stops : β → Prop}

theorem Glances.bind {f : ρ → FileProg κ β ε χ τ} (hf : ∀ r, Glances q (f r)) :
    ∀ {p : FileProg κ β ε χ ρ}, Glances q p → Glances q (p >>= f)
  | .ret _, _ => hf _
  | .thrown _, _ => trivial
  | .op _ _, h => ⟨h.1, h.2.1, fun a => Glances.bind hf (h.2.2 a)⟩

theorem Glances.enters {f : ρ → FileProg κ β ε χ τ} (hf : ∀ r, Enters q stops (f r)) :
    ∀ {p : FileProg κ β ε χ ρ}, Glances q p → Enters q stops (p >>= f)
  | .ret _, _ => hf _
  | .thrown _, _ => trivial
  | .op _ _, h => .inr ⟨h.1, h.2.1, fun a => Glances.enters hf (h.2.2 a)⟩

theorem glances_ofExcept (x : Except χ ρ) : Glances q (ofExcept x : FileProg κ β ε χ ρ) := by
  cases x <;> trivial

theorem Enters.mapFiles {κ' : Type} {f : κ → κ'} (hf : Function.Injective f) :
    ∀ {p : FileProg κ β ε χ ρ}, Enters q stops p → Enters (f q) stops (p.mapFiles f)
  | .ret _, _ => trivial
  | .thrown _, _ => trivial
  | .op o k, h => by
    have thrown : ∀ {a}, (∃ e, k a = .thrown e) → ∃ e, (k a).mapFiles f = .thrown e := by
      rintro a ⟨e, he⟩
      exact ⟨e, by rw [he]; rfl⟩
    rcases h with ⟨rfl, hk, hdenied⟩ | ⟨hne, hlooks, hk⟩
    · exact .inl ⟨rfl, fun b hb => thrown (hk b hb), fun code => thrown (hdenied code)⟩
    · refine .inr ⟨?_, ?_, fun a => Enters.mapFiles hf (hk a)⟩
      · intro heq
        cases o <;> first | cases heq | skip
        rename_i x
        have hx : f x = f q := by simpa [FsOp.map] using heq
        exact hne (by rw [hf hx])
      · cases o <;> exact hlooks

end Enters

theorem glances_must {q : StateFile} {o : NodeOp} (hne : o ≠ .read q) (hlooks : o.Looks) :
    Glances q (must o) := by
  refine ⟨hne, hlooks, fun a => ?_⟩
  cases a <;> trivial

theorem glances_loadConfig (env : NodeEnv) : Glances .machine (loadConfig env) := by
  have hread : Glances StateFile.machine (readJson .config (defaultConfig env)) := by
    refine ⟨by simp, trivial, fun a => ?_⟩
    cases a <;> trivial
  exact Glances.bind (fun _ => hread)
    (Glances.bind (fun _ => glances_must (o := .mkdir .keysDir) (by simp) trivial)
      (glances_must (o := .mkdir .base) (by simp) trivial))

/-- What the registry says about the node. -/
theorem parseMachineRegistry_ok {env : NodeEnv} {now : JsString} {raw : Bytes} {reg : MachineRegistry} {v : Json}
    (hv : parse (decodeUtf8 raw) = some v) (h : parseMachineRegistry env now raw = .ok reg) :
    reg.node_id = textField v (js "node_id") ∧ reg.state_dir = textField v (js "state_dir") := by
  unfold parseMachineRegistry at h
  rw [hv] at h
  dsimp only at h
  obtain ⟨_, -, h⟩ := bind_eq_ok.mp h
  split at h
  · cases h
    exact ⟨rfl, rfl⟩
  · cases h

/-- A registry with the node of another state directory is refused. -/
theorem checkMachine_other {env : NodeEnv} {reg : MachineRegistry} {dir : JsString} (existing : Option Json)
    (hnode : isText reg.node_id = true) (hdir : reg.state_dir = some dir) (htext : dir ≠ [])
    (hne : normalizeDir env dir ≠ normalizeDir env env.stateDir) :
    ∃ e, checkMachine env reg existing = .error e := by
  have hstate : isText reg.state_dir = true := by
    rw [hdir]
    simpa [isText] using htext
  have hother : (isText reg.node_id && isText reg.state_dir &&
      normalizeDir env (reg.state_dir.getD []) != normalizeDir env env.stateDir) = true := by
    rw [hnode, hstate, hdir]
    simpa using hne
  unfold checkMachine
  dsimp only
  rw [if_pos hother]
  exact ⟨_, rfl⟩

/-- `assertMachineCanRegister` throws if its check fails on the registry that it finds. -/
theorem assertMachineCanRegister_thrown {env : NodeEnv} {c : MachineDraws} {existing : Option Json} {raw : Bytes}
    (h : ∀ reg, parseMachineRegistry env c.now raw = .ok reg → ∃ e, checkMachine env reg existing = .error e)
    (g : MachineRegistry → NodeProg Json) :
    ∃ e, (assertMachineCanRegister env c existing >>= g).resume (.data raw) = .thrown e := by
  have hresume : (assertMachineCanRegister env c existing >>= g).resume (.data raw) =
      (ofExcept (parseMachineRegistry env c.now raw) >>= fun reg =>
        ofExcept (checkMachine env reg existing) >>= fun _ => g reg) := by
    show ((((ofExcept (parseMachineRegistry env c.now raw) >>= fun reg => pure (some reg)) >>= _) >>= _) >>= _) = _
    rcases parseMachineRegistry env c.now raw with e | reg
    · rfl
    · show ((ofExcept (checkMachine env reg existing) >>= fun _ => pure reg) >>= g) = _
      rcases hcheck : checkMachine env reg existing with e | u
      · show _ = ofExcept (checkMachine env reg existing) >>= fun _ => g reg
        rw [hcheck]
        rfl
      · show _ = ofExcept (checkMachine env reg existing) >>= fun _ => g reg
        rw [hcheck]
        rfl
  rw [hresume]
  rcases hp : parseMachineRegistry env c.now raw with e | reg
  · exact ⟨e, rfl⟩
  · obtain ⟨e, he⟩ := h reg hp
    refine ⟨e, ?_⟩
    show (ofExcept (checkMachine env reg existing) >>= fun _ => g reg) = _
    rw [he]
    rfl

theorem enters_registerNode {i : Bool}
    (hdirs : normalizeDir (who i).env (who i).env.stateDir ≠ normalizeDir (who !i).env (who !i).env.stateDir) :
    Enters .machine (fun raw => claimedBy who (!i) (some raw) = true)
      (registerNode (who i).env (who i).registration) := by
  unfold registerNode
  refine (glances_ofExcept _).enters fun _ => ?_
  refine (glances_loadConfig _).enters fun existing => ?_
  refine (glances_ofExcept _).enters fun existingNodeId => ?_
  refine .inl ⟨rfl, fun raw hraw => ?_, fun code => ⟨_, rfl⟩⟩
  refine assertMachineCanRegister_thrown (fun reg hreg => ?_) _
  have hraw : claimedBy who (!i) (some raw) = true := hraw
  unfold claimedBy at hraw
  rw [Option.bind_some] at hraw
  split at hraw
  · cases hraw
  · rename_i v hv
    obtain ⟨hnode, hdir⟩ := Bool.and_eq_true_iff.mp hraw
    obtain ⟨hreg_node, hreg_dir⟩ := parseMachineRegistry_ok hv hreg
    refine checkMachine_other existingNodeId (by rw [hreg_node]; exact hnode)
      (hreg_dir.trans (of_decide_eq_true hdir)) (List.cons_ne_nil _ _) ?_
    rw [normalizeDir_normalizeDir]
    exact hdirs.symm

/-! ### Runs -/

/-- **The invariant.** A process that has not loaded the registry has not changed its configuration, and one
of the two has no node id and will not write one, or has not loaded the registry. -/
structure Locked (s : MachineState) : Prop where
  spares : ∀ i, Spares (.own (!i) .config) (s.world.procs i)
  unloaded : ∀ i, s.loaded i = false → hasNode who s.world.disk i = false ∧
    Enters .machine (fun raw => claimedBy who (!i) (some raw) = true) (s.world.procs i)
  idle : ∃ i, hasNode who s.world.disk i = false ∧
    (s.loaded i = false ∨ Spares (.own i .config) (s.world.procs i))

variable {who deny}

theorem hasNode_congr {d d' : Disk MachineFile Bytes} {i : Bool} (h : d' (.own i .config) = d (.own i .config)) :
    hasNode who d' i = hasNode who d i := by
  unfold hasNode
  rw [h]

theorem fileOf_injective (i : Bool) : Function.Injective (fileOf i) := by
  intro a b h
  cases a <;> cases b <;> first | rfl | cases h
  rfl

theorem fileOf_ne (i : Bool) (x : StateFile) : fileOf i x ≠ .own (!i) .config := by
  cases x <;> cases i <;> simp [fileOf]

theorem procs_step (s : MachineState) (i : Bool) : (machineStep deny s i).world.procs i =
    (machine.tick [] deny (s.world.procs i, s.world.disk)).1 := Function.update_self _ _ _

theorem loaded_step (s : MachineState) (i : Bool) :
    (machineStep deny s i).loaded i = (s.loaded i || readsRegistry (s.world.procs i)) :=
  Function.update_self _ _ _

theorem spares_step {s : MachineState} {i : Bool} {q : MachineFile} (h : Spares q (s.world.procs i)) :
    Spares q ((machineStep deny s i).world.procs i) := by
  rw [procs_step]
  rcases hp : s.world.procs i with r | e | ⟨o, k⟩
  · trivial
  · trivial
  · rw [hp] at h
    exact h.2 _

variable (who deny) in
/-- The step of a process: the other one stays, with its configuration. -/
theorem other_step {s : MachineState} (h : Spares (.own (!i) .config) (s.world.procs i)) :
    (machineStep deny s i).world.procs (!i) = s.world.procs (!i) ∧
      (machineStep deny s i).loaded (!i) = s.loaded (!i) ∧
      hasNode who (machineStep deny s i).world.disk (!i) = hasNode who s.world.disk (!i) := by
  have hne : (!i) ≠ i := by simp
  exact ⟨Function.update_of_ne hne _ _, Function.update_of_ne hne _ _, hasNode_congr (h.tick _)⟩

theorem readsRegistry_iff {q : MachineProg} :
    readsRegistry q = true ↔ ∃ k, q = .op (.read .machine) k := by
  constructor
  · intro h
    rcases q with r | e | ⟨o, k⟩
    · cases h
    · cases h
    · cases o with
      | read x =>
        cases x with
        | machine => exact ⟨k, rfl⟩
        | _ => cases h
      | _ => cases h
  · rintro ⟨k, rfl⟩
    rfl

variable (deny) in
/-- A process that has not loaded the registry, and does not load it now, only looks. -/
theorem enters_step {s : MachineState} {i : Bool} {stops : Bytes → Prop}
    (h : Enters .machine stops (s.world.procs i)) (hno : readsRegistry (s.world.procs i) = false) :
    (machineStep deny s i).world.disk = s.world.disk ∧
      Enters .machine stops ((machineStep deny s i).world.procs i) := by
  unfold machineStep
  rcases hp : s.world.procs i with r | e | ⟨o, k⟩
  · have hdone : machine.next (s.world.procs i) = none := by rw [hp]; rfl
    dsimp only
    rw [World.step_of_done hdone, hp]
    exact ⟨rfl, trivial⟩
  · have hdone : machine.next (s.world.procs i) = none := by rw [hp]; rfl
    dsimp only
    rw [World.step_of_done hdone, hp]
    exact ⟨rfl, trivial⟩
  · rw [hp] at h hno
    rcases h with ⟨rfl, -, -⟩ | ⟨-, hlooks, hk⟩
    · cases hno
    · have hnext : machine.next (s.world.procs i) = some o := by rw [hp]; rfl
      dsimp only
      rw [World.step_of_looks hnext hlooks]
      refine ⟨rfl, ?_⟩
      have hproc : (s.world.setProc i (machine.resume (s.world.procs i)
          (exec [] deny s.world.disk o).1)).procs i = k (exec [] deny s.world.disk o).1 := by
        rw [hp]
        exact Function.update_self _ _ _
      rw [hproc]
      exact hk _

variable (deny) in
/-- A process that loads the registry finds the claim of the other one there, and throws. -/
theorem loads_claimed {s : MachineState} {i : Bool}
    (h : Enters .machine (fun raw => claimedBy who (!i) (some raw) = true) (s.world.procs i))
    (hreads : readsRegistry (s.world.procs i) = true)
    (hclaimed : claimedBy who (!i) (s.world.disk .machine) = true) :
    ∃ e, (machineStep deny s i).world.procs i = .thrown e := by
  obtain ⟨k, hp⟩ := readsRegistry_iff.mp hreads
  rw [hp] at h
  rcases h with ⟨-, hdata, hdenied⟩ | ⟨hne, -⟩
  · have hnext : machine.next (s.world.procs i) = some (.read .machine) := by rw [hp]; rfl
    have hproc : (machineStep deny s i).world.procs i = k (exec [] deny s.world.disk (.read .machine)).1 := by
      unfold machineStep
      dsimp only
      rw [World.step_of_next hnext, hp]
      exact Function.update_self _ _ _
    rw [hproc]
    unfold exec
    split
    · exact hdenied _
    · rcases hd : s.world.disk .machine with _ | raw
      · rw [hd] at hclaimed
        cases hclaimed
      · rw [hd] at hclaimed
        dsimp only
        rw [hd]
        exact hdata raw hclaimed
  · exact absurd rfl hne

theorem loads_disk {s : MachineState} {i : Bool} (hreads : readsRegistry (s.world.procs i) = true) :
    (machineStep deny s i).world.disk = s.world.disk := by
  obtain ⟨k, hp⟩ := readsRegistry_iff.mp hreads
  have hnext : machine.next (s.world.procs i) = some (.read .machine) := by rw [hp]; rfl
  unfold machineStep
  dsimp only
  rw [World.step_of_looks hnext trivial]
  rfl

namespace Locked

variable {s : MachineState} (h : Locked who s)
include h

/-- **What a step preserves.** -/
theorem step {k : Bool} (hc : LoadsApart who s k) : Locked who (machineStep deny s k) := by
  obtain ⟨hproc, hloaded, hnode⟩ := other_step who deny (h.spares k)
  constructor
  case spares =>
    intro i
    rcases eq_or_ne i k with rfl | hi
    · exact spares_step (h.spares i)
    · obtain rfl := Bool.eq_not.mpr hi
      rw [hproc]
      exact h.spares _
  case unloaded =>
    intro i hi
    rcases eq_or_ne i k with rfl | hne
    · rw [loaded_step] at hi
      obtain ⟨hbefore, hno⟩ := Bool.or_eq_false_iff.mp hi
      obtain ⟨hnone, henters⟩ := h.unloaded i hbefore
      obtain ⟨hdisk, hnext⟩ := enters_step deny henters hno
      rw [hdisk]
      exact ⟨hnone, hnext⟩
    · obtain rfl := Bool.eq_not.mpr hne
      rw [hloaded] at hi
      rw [hproc, hnode]
      exact h.unloaded _ hi
  case idle =>
    obtain ⟨i, hnone, hidle⟩ := h.idle
    rcases eq_or_ne i k with rfl | hne
    · rcases hidle with hbefore | hspares
      · rcases hreads : readsRegistry (s.world.procs i) with _ | _
        · -- it looks at other files
          obtain ⟨-, henters⟩ := h.unloaded i hbefore
          obtain ⟨hdisk, -⟩ := enters_step deny henters hreads
          refine ⟨i, by rw [hdisk]; exact hnone, .inl ?_⟩
          rw [loaded_step, hbefore, hreads]
          rfl
        · rcases hc hreads hbefore with hother | hclaimed | ⟨hended, hother⟩
          · -- the other one has not loaded the registry: it is the idle one now
            refine ⟨!i, ?_, .inl (by rw [hloaded]; exact hother)⟩
            rw [hnode]
            exact (h.unloaded _ hother).1
          · obtain ⟨e, he⟩ := loads_claimed deny (h.unloaded i hbefore).2 hreads hclaimed
            refine ⟨i, ?_, .inr ?_⟩
            · rw [loads_disk hreads]
              exact hnone
            · rw [he]
              trivial
          · refine ⟨!i, by rw [hnode]; exact hother, .inr ?_⟩
            rw [hproc]
            exact spares_of_ended (Option.isNone_iff_eq_none.mp hended)
      · refine ⟨i, ?_, .inr (spares_step hspares)⟩
        have hsame : hasNode who (machineStep deny s i).world.disk i = hasNode who s.world.disk i :=
          hasNode_congr (hspares.tick _)
        rw [hsame]
        exact hnone
    · obtain rfl := Bool.eq_not.mpr hne
      refine ⟨_, by rw [hnode]; exact hnone, ?_⟩
      rw [hloaded, hproc]
      exact hidle

end Locked

theorem locked_start {d : Disk MachineFile Bytes} (hd : ∀ i, hasNode who d i = false)
    (hdirs : normalizeDir (who true).env (who true).env.stateDir ≠
      normalizeDir (who false).env (who false).env.stateDir) : Locked who (machineStart who d) where
  spares := fun i => spares_mapFiles (fileOf i) (fileOf_ne i) _
  unloaded := by
    intro i _
    refine ⟨hd i, ?_⟩
    have hne : normalizeDir (who i).env (who i).env.stateDir ≠
        normalizeDir (who !i).env (who !i).env.stateDir := by
      cases i
      · exact hdirs.symm
      · exact hdirs
    exact (enters_registerNode who hne).mapFiles (fileOf_injective i)
  idle := ⟨true, hd true, .inl rfl⟩

/-- **One node for a machine.** In a run whose steps meet the condition, at most one of the two configurations
has a node id in every state that is reached. -/
theorem one_node {d : Disk MachineFile Bytes} (hd : ∀ i, hasNode who d i = false)
    (hdirs : normalizeDir (who true).env (who true).env.stateDir ≠
      normalizeDir (who false).env (who false).env.stateDir) {is : List Bool}
    (hc : Steps (machineStep deny) (fun _ => LoadsApart who) (machineStart who d) is) :
    ¬ (hasNode who (run (machineStep deny) (machineStart who d) is).world.disk true = true ∧
      hasNode who (run (machineStep deny) (machineStart who d) is).world.disk false = true) := by
  have hlocked := run_induct (J := fun _ s => Locked who s) (locked_start hd hdirs)
    (fun _ _ h hstep => h.step hstep) hc
  obtain ⟨i, hnone, -⟩ := hlocked.idle
  rintro ⟨htrue, hfalse⟩
  cases i
  · rw [hnone] at hfalse
    cases hfalse
  · rw [hnone] at htrue
    cases htrue

/-! ### Two runs -/

namespace Sample

/-- Two state directories, and two node ids from the server. -/
def registrants (i : Bool) : Registrant where
  env := { env with stateDir := if i then js "/state-1" else js "/state-2" }
  registration := { keyless with answer := some (200, stringify (.obj [(js "success", .bool true),
    (js "node_id", .str (if i then js "node-1" else js "node-2"))])) }

/-- A machine registry without a node id. -/
def machineDisk : Disk MachineFile Bytes :=
  Function.update (fun _ => none) .machine
    (some (utf8 (stringifyPretty (.obj [(js "machine_id", .str (js "machine-1"))]))))

def permit (_ : FsOp MachineFile Bytes) : Option JsString := none

/-- One process after the other. -/
def sequential : List Bool := List.replicate 14 true ++ List.replicate 14 false

/-- The processes take turns. -/
def alternating : List Bool := (List.replicate 14 [true, false]).flatten

theorem sequential_one_node :
    ¬ (hasNode registrants (run (machineStep permit) (machineStart registrants machineDisk)
        sequential).world.disk true = true ∧
      hasNode registrants (run (machineStep permit) (machineStart registrants machineDisk)
        sequential).world.disk false = true) :=
  one_node (by decide +kernel) (by decide +kernel) (by decide +kernel)

/-- Both processes have ended, and both have saved a node id. -/
theorem alternating_two_nodes : ¬ ∀ is : List Bool,
    (∀ i, ((run (machineStep permit) (machineStart registrants machineDisk) is).world.procs i).next.isNone = true) →
      ¬ (hasNode registrants (run (machineStep permit) (machineStart registrants machineDisk)
          is).world.disk true = true ∧
        hasNode registrants (run (machineStep permit) (machineStart registrants machineDisk)
          is).world.disk false = true) := by
  intro h
  exact h alternating (by decide +kernel) (by decide +kernel)

end Sample

end ConsensusNode.Node
