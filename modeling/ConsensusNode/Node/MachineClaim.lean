import ConsensusNode.Lib.Run
import ConsensusNode.Node.State

/-! # Calls on the machine registry in sequence

Calls of `assertMachineCanRegister` and `claimMachineNode`, one after another, each with its own environment,
random id and clock; the system may refuse any operation of theirs. `MachineClaim` is what the first claim
fixes.

* `holds_after`: a call keeps it.
* `claim_is_permanent`: a claim with another node or directory throws and changes nothing, and
  `assertMachineCanRegister` succeeds exactly for that directory without a node id or with that one. -/

namespace ConsensusNode.Node

open Js Lib Lib.Run FileProg

/-! ### Calls -/

/-- What a call asks for. A node id is not empty. -/
inductive MachineRequest where
  | assert (existingNodeId : Option JsString)
  | claim (nodeId : JsString) (nonempty : nodeId ≠ []) (installDir : Option JsString)

/-- A call, with what it takes from its environment; `randomUUID` is not empty. -/
structure MachineCall where
  env : NodeEnv
  draws : MachineDraws
  saveDraws : MachineDraws
  uuid_ne : draws.uuid ≠ []
  deny : NodeOp → Option JsString
  request : MachineRequest

namespace MachineCall

variable (a : MachineCall)

/-- The state directory of the call. -/
def dir : JsString := normalizeDir a.env a.env.stateDir

def prog : NodeProg Unit :=
  match a.request with
  | .assert existing => do
    let _ ← assertMachineCanRegister a.env a.draws (existing.map .str)
  | .claim nodeId _ installDir =>
    claimMachineNode a.env a.draws a.saveDraws (some (.str nodeId)) (installDir.filter fun s => !s.isEmpty)

/-- The call returns. -/
def Succeeds (d : Disk StateFile Bytes) : Prop := ∃ r, (eval [] a.deny a.prog d).1 = .ok r

/-- The files after the call. -/
def after (d : Disk StateFile Bytes) (a : MachineCall) : Disk StateFile Bytes := (eval [] a.deny a.prog d).2

end MachineCall

/-! ### What a registry says for good -/

/-- A node and a resolved directory, with the id of the machine and the two times. -/
structure MachineClaim where
  machine_id : JsString
  created_at : JsString
  registered_at : JsString
  node_id : JsString
  state_dir : JsString
  node_ne : node_id ≠ []
  dir_resolved : ∃ env v, state_dir = normalizeDir env v

theorem MachineClaim.dir_normal (c : MachineClaim) (env : NodeEnv) : normalizeDir env c.state_dir = c.state_dir := by
  obtain ⟨env', v, h⟩ := c.dir_resolved
  rw [h, normalizeDir_normalizeDir]

theorem MachineClaim.dir_ne (c : MachineClaim) : c.state_dir ≠ [] := by
  obtain ⟨env, v, h⟩ := c.dir_resolved
  rw [h, normalizeDir_eq]
  exact List.cons_ne_nil _ _

/-- The registry makes the claim. -/
structure MachineRegistry.Makes (r : MachineRegistry) (c : MachineClaim) : Prop where
  machine_id : r.machine_id = c.machine_id
  created_at : r.created_at = c.created_at
  registered_at : r.registered_at = some c.registered_at
  node_id : r.node_id = some c.node_id
  state_dir : r.state_dir = some c.state_dir

/-- The file holds a registry that makes the claim, whoever reads it. -/
def MachineClaim.Holds (c : MachineClaim) (content : Option Bytes) : Prop :=
  ∃ raw r, content = some raw ∧ (∀ env now, parseMachineRegistry env now raw = .ok r) ∧ r.Makes c

/-! ### The text of a registry -/

/-- The fields of a registry with a node. -/
def registryFields (r : MachineRegistry) (n : JsString) : List (JsString × Option Json) :=
  [(js "machine_id", some (.str r.machine_id)), (js "created_at", some (.str r.created_at)),
    (js "updated_at", some (.str r.updated_at)), (js "state_dir", r.state_dir.map .str),
    (js "install_dir", r.install_dir.map .str), (js "node_id", some (.str n)),
    (js "registered_at", r.registered_at.map .str)]

/-- Their names. -/
def registryKeys : List JsString := [js "machine_id", js "created_at", js "updated_at", js "state_dir",
  js "install_dir", js "node_id", js "registered_at"]

theorem registryKeys_nodup : registryKeys.Nodup := by decide

theorem exact_withNode (r : MachineRegistry) (n : JsString) : Exact (r.withNode (some (.str n))) := by
  show Exact (.obj (definedFields (registryFields r n)))
  refine exact_definedFields registryKeys_nodup ?_ ?_
  · show registryKeys.Pairwise _
    decide
  · intro e he v hv
    simp only [registryFields, List.mem_cons, List.not_mem_nil, or_false] at he
    rcases he with rfl | rfl | rfl | rfl | rfl | rfl | rfl
    case inr.inr.inr.inl => exact exact_of_map_str hv
    case inr.inr.inr.inr.inl => exact exact_of_map_str hv
    case inr.inr.inr.inr.inr.inr => exact exact_of_map_str hv
    all_goals
      cases hv
      exact exact_str _

theorem textField_withNode {r : MachineRegistry} {n k : JsString} {s : Option JsString}
    (h : (registryFields r n).lookup k = some (s.map .str)) : textField (r.withNode (some (.str n))) k = s := by
  have hkeys : ((registryFields r n).map Prod.fst).Nodup := registryKeys_nodup
  have hlookup : (r.withNode (some (.str n))).field? k = s.map .str := by
    show (definedFields (registryFields r n)).lookup k = _
    rw [lookup_definedFields hkeys, h]
    rfl
  unfold textField
  rw [hlookup]
  cases s <;> rfl

/-- What was saved is read back. -/
theorem parseMachineRegistry_saved {r : MachineRegistry} (n : JsString) (hid : r.machine_id ≠ []) (env : NodeEnv)
    (now : JsString) : parseMachineRegistry env now (utf8 (stringifyPretty (r.withNode (some (.str n))))) =
      .ok { r with node_id := some n } := by
  have hexact := exact_withNode r n
  obtain ⟨c, s, hcons⟩ : ∃ c s, r.machine_id = c :: s := List.exists_cons_of_ne_nil hid
  have hget : ∃ x, (r.withNode (some (.str n))).get (js "machine_id") = .ok x := ⟨_, rfl⟩
  obtain ⟨x, hx⟩ := hget
  have h1 := textField_withNode (r := r) (n := n) (k := js "machine_id") (s := some r.machine_id) rfl
  have h2 := textField_withNode (r := r) (n := n) (k := js "created_at") (s := some r.created_at) rfl
  have h3 := textField_withNode (r := r) (n := n) (k := js "updated_at") (s := some r.updated_at) rfl
  have h4 := textField_withNode (r := r) (n := n) (k := js "state_dir") (s := r.state_dir) rfl
  have h5 := textField_withNode (r := r) (n := n) (k := js "install_dir") (s := r.install_dir) rfl
  have h6 := textField_withNode (r := r) (n := n) (k := js "node_id") (s := some n) rfl
  have h7 := textField_withNode (r := r) (n := n) (k := js "registered_at") (s := r.registered_at) rfl
  unfold parseMachineRegistry
  rw [parse_decode_pretty hexact.1.1 hexact.1.2, hexact.2]
  dsimp only
  rw [hx, h1, h2, h3, h4, h5, h6, h7, hcons]
  show Except.ok _ = _
  rw [← hcons]
  rfl

/-! ### The two programs -/

variable (deny : NodeOp → Option JsString) (d : Disk StateFile Bytes)

theorem eval_must (o : NodeOp) :
    (exec [] deny d o).1 = .done ∧ eval [] deny (must o) d = (.ok (), (exec [] deny d o).2) ∨
    (exec [] deny d o).1 ≠ .done ∧ eval [] deny (must o) d = (.error .native, (exec [] deny d o).2) := by
  have hcall : ∀ f : _ → NodeProg Unit,
      eval [] deny (FileProg.call o >>= f) d = eval [] deny (f (exec [] deny d o).1) (exec [] deny d o).2 :=
    fun _ => rfl
  unfold must
  rw [hcall]
  rcases (exec [] deny d o).1 with _ | b | _ | code
  · exact .inl ⟨rfl, rfl⟩
  · exact .inr ⟨by simp, rfl⟩
  · exact .inr ⟨by simp, rfl⟩
  · exact .inr ⟨by simp, rfl⟩

/-- Writing another file leaves the registry. -/
theorem eval_writeFile {file : StateFile} (hfile : file ≠ .machine) (content : Bytes) :
    ∃ d', d' .machine = d .machine ∧
      (eval [] deny (writeFile file content) d = (.ok (), d') ∧ d' file = some content ∨
        ∃ e, eval [] deny (writeFile file content) d = (.error e, d')) := by
  have hspares : ∀ (o : NodeOp) (d : Disk StateFile Bytes), o.changes .machine = false →
      (exec [] deny d o).2 .machine = d .machine := fun _ _ ho => exec_of_not_changes ho
  have htruncate := hspares (.truncate file) d (by simpa [FsOp.changes] using hfile)
  unfold writeFile
  rcases eval_must deny d (.truncate file) with ⟨-, h⟩ | ⟨-, h⟩
  · rw [eval_bind_ok h]
    have hwrite := hspares (.write file content) (exec [] deny d (.truncate file)).2
      (by simpa [FsOp.changes] using hfile)
    refine ⟨_, hwrite.trans htruncate, ?_⟩
    rcases eval_must deny (exec [] deny d (.truncate file)).2 (.write file content) with
      ⟨hdone, h⟩ | ⟨-, h⟩
    · exact .inl ⟨h, exec_write_done hdone⟩
    · exact .inr ⟨_, h⟩
  · exact ⟨_, htruncate, .inr ⟨_, eval_bind_error h _⟩⟩

/-- **Saving** replaces the file, or throws and leaves it. -/
theorem eval_saveMachineRegistry (tmp : ℕ) (v : Json) :
    (eval [] deny (saveMachineRegistry tmp v) d).1 = .ok () ∧
      (eval [] deny (saveMachineRegistry tmp v) d).2 .machine = some (utf8 (stringifyPretty v)) ∨
    (∃ e, (eval [] deny (saveMachineRegistry tmp v) d).1 = .error e) ∧
      (eval [] deny (saveMachineRegistry tmp v) d).2 .machine = d .machine := by
  have hmkdir : (exec [] deny d (.mkdir .machineDir)).2 = d := exec_looks trivial
  unfold saveMachineRegistry
  rcases eval_must deny d (.mkdir .machineDir) with ⟨-, h⟩ | ⟨-, h⟩
  · rw [hmkdir] at h
    rw [eval_bind_ok h]
    obtain ⟨d', hkeeps, ⟨hwritten, htmp⟩ | ⟨e, hfailed⟩⟩ := eval_writeFile deny d
      (show StateFile.tmp tmp ≠ .machine by simp) (utf8 (stringifyPretty v))
    · rw [eval_bind_ok hwritten]
      rcases eval_must deny d' (.rename (.tmp tmp) .machine) with ⟨hdone, hr⟩ | ⟨hfails, hr⟩
      · rw [hr]
        exact .inl ⟨rfl, exec_rename_done htmp hdone⟩
      · rw [hr]
        exact .inr ⟨⟨_, rfl⟩, (congrFun (exec_rename_fails hfails) _).trans hkeeps⟩
    · rw [eval_bind_error hfailed]
      exact .inr ⟨⟨e, rfl⟩, hkeeps⟩
  · rw [eval_bind_error h, hmkdir]
    exact .inr ⟨⟨_, rfl⟩, rfl⟩

/-- A save that the system does not refuse. -/
theorem eval_save_allowed (tmp : ℕ) (v : Json) (d : Disk StateFile Bytes) :
    ∃ d', eval [] allowed (saveMachineRegistry tmp v) d = (.ok (), d') := by
  have hmust : ∀ (o : NodeOp) (d : Disk StateFile Bytes), (exec [] allowed d o).1 = .done →
      eval [] allowed (must o) d = (.ok (), (exec [] allowed d o).2) := by
    intro o d hdone
    rcases eval_must allowed d o with ⟨-, h⟩ | ⟨hne, -⟩
    · exact h
    · exact absurd hdone hne
  unfold saveMachineRegistry writeFile
  have htruncate := hmust (.truncate (.tmp tmp)) d rfl
  rw [exec_truncate rfl] at htruncate
  have hwrite := hmust (.write (.tmp tmp) (utf8 (stringifyPretty v))) (Function.update d (.tmp tmp) (some [])) rfl
  rw [exec_write rfl] at hwrite
  have htmp := Function.update_self (StateFile.tmp tmp) (some (utf8 (stringifyPretty v)))
    (Function.update d (.tmp tmp) (some []))
  have hrename : (exec [] allowed _ (.rename (.tmp tmp) .machine)).1 = .done :=
    congrArg Prod.fst (exec_rename rfl htmp)
  rw [eval_bind_ok (hmust (.mkdir .machineDir) d rfl), exec_mkdir rfl,
    eval_bind_ok ((eval_bind_ok htruncate _).trans hwrite)]
  exact ⟨_, hmust _ _ hrename⟩

theorem eval_loadMachineRegistry (env : NodeEnv) (now : JsString) :
    eval [] deny (loadMachineRegistry env now) d = (match (exec [] deny d (.read .machine)).1 with
      | .data raw => (parseMachineRegistry env now raw).map some
      | .absent => .ok none
      | _ => .error .native, d) := by
  have hlooks : (exec [] deny d (.read .machine)).2 = d := exec_looks trivial
  have hcall : eval [] deny (loadMachineRegistry env now) d = eval [] deny
      (match (exec [] deny d (.read .machine)).1 with
        | .data raw => ofExcept (parseMachineRegistry env now raw) >>= fun r => .ret (some r)
        | .absent => .ret none
        | _ => .thrown .native : NodeProg (Option MachineRegistry)) (exec [] deny d (.read .machine)).2 := rfl
  rw [hcall, hlooks]
  rcases (exec [] deny d (.read .machine)).1 with _ | raw | _ | code
  · rfl
  · dsimp only
    rw [eval_bind, eval_ofExcept]
    rcases parseMachineRegistry env now raw with e | r <;> rfl
  · rfl
  · rfl

variable {deny d}

/-- **Loading** a registry that is there. -/
theorem eval_loadOrCreate (deny : NodeOp → Option JsString) {raw : Bytes} {r : MachineRegistry} {env : NodeEnv}
    {c : MachineDraws} (hraw : d .machine = some raw) (hr : parseMachineRegistry env c.now raw = .ok r) :
    eval [] deny (loadOrCreateMachineRegistry env c) d =
      (if (deny (.read .machine)).isSome then .error .native else .ok r, d) := by
  have hload := eval_loadMachineRegistry deny d env c.now
  unfold loadOrCreateMachineRegistry
  rcases hdeny : deny (.read .machine) with _ | code
  · rw [exec_read hdeny, hraw] at hload
    dsimp only at hload
    rw [hr] at hload
    rw [eval_bind_ok hload]
    rfl
  · rw [exec_denied hdeny] at hload
    rw [eval_bind_error hload]
    rfl

theorem machine_id_of_parse {env : NodeEnv} {now : JsString} {raw : Bytes} {r : MachineRegistry}
    (h : parseMachineRegistry env now raw = .ok r) : r.machine_id ≠ [] := by
  unfold parseMachineRegistry at h
  split at h
  · cases h
  · obtain ⟨_, -, h⟩ := bind_eq_ok.mp h
    split at h
    · cases h
      exact List.cons_ne_nil _ _
    · cases h

/-- A registry that is loaded or created has an id. -/
theorem loadOrCreate_machine_id {r : MachineRegistry} {env : NodeEnv} {c : MachineDraws} (hc : c.uuid ≠ [])
    {d' : Disk StateFile Bytes} (h : eval [] deny (loadOrCreateMachineRegistry env c) d = (.ok r, d')) :
    r.machine_id ≠ [] := by
  unfold loadOrCreateMachineRegistry at h
  obtain ⟨found, d₁, hload, h⟩ := eval_bind_eq_ok h
  rcases found with _ | existing
  · obtain ⟨_, d₂, -, h⟩ := eval_bind_eq_ok h
    cases h
    exact hc
  · cases h
    rw [eval_loadMachineRegistry] at hload
    obtain ⟨hresult, rfl⟩ := Prod.mk.inj hload
    split at hresult
    · rcases hparse : parseMachineRegistry env c.now _ with e | r'
      · rw [hparse] at hresult
        cases hresult
      · rw [hparse] at hresult
        cases hresult
        exact machine_id_of_parse hparse
    · cases hresult
    · cases hresult

/-! ### The checks -/

theorem checkMachine_ok_iff (env : NodeEnv) {r : MachineRegistry} {c : MachineClaim} (hr : r.Makes c)
    (existing : Option JsString) :
    checkMachine env r (existing.map .str) = .ok () ↔
      normalizeDir env env.stateDir = c.state_dir ∧ (isText existing = true → existing = some c.node_id) := by
  have hn : isText (some c.node_id) = true := by simpa [isText] using c.node_ne
  have hd : isText (some c.state_dir) = true := by simpa [isText] using c.dir_ne
  have htruthy : Json.truthy (existing.map .str) = isText existing := by cases existing <;> rfl
  unfold checkMachine
  simp only [hr.node_id, hr.state_dir, hn, hd, htruthy, Option.getD_some, c.dir_normal env, Bool.true_and,
    Bool.not_true, Bool.false_and]
  by_cases hsame : normalizeDir env env.stateDir = c.state_dir
  · rw [hsame]
    simp only [bne_self_eq_false]
    rcases htext : isText existing with _ | _
    · simp only [Bool.false_eq_true, false_implies, and_true, iff_true]
      rfl
    · obtain ⟨s, rfl⟩ : ∃ s, existing = some s := by
        rcases existing with _ | s
        · cases htext
        · exact ⟨s, rfl⟩
      by_cases hsn : s = c.node_id
      · simp only [hsn, Option.map_some, Bool.true_and, bne_self_eq_false, true_and, implies_true, iff_true]
        rfl
      · have hbne : (some (Json.str c.node_id) != some (Json.str s)) = true := by simpa using Ne.symm hsn
        simp only [Option.map_some, Bool.true_and, hbne, Option.some.injEq, hsn, imp_false, not_true, and_false,
          iff_false]
        intro h
        cases h
  · have hbne : (c.state_dir != normalizeDir env env.stateDir) = true := by simpa using Ne.symm hsame
    simp only [hbne, hsame, false_and, iff_false]
    intro h
    cases h

/-- **The guard** on a registry that is there: it returns the registry, or throws, and changes nothing. -/
theorem eval_assert (deny : NodeOp → Option JsString) (existing : Option Json) {raw : Bytes} {r : MachineRegistry}
    {env : NodeEnv} {c : MachineDraws} (hraw : d .machine = some raw)
    (hr : parseMachineRegistry env c.now raw = .ok r) :
    (deny (.read .machine) = none ∧ checkMachine env r existing = .ok ()) ∧
      eval [] deny (assertMachineCanRegister env c existing) d = (.ok r, d) ∨
    ¬ (deny (.read .machine) = none ∧ checkMachine env r existing = .ok ()) ∧
      ∃ e, eval [] deny (assertMachineCanRegister env c existing) d = (.error e, d) := by
  have hload := eval_loadOrCreate deny hraw hr
  unfold assertMachineCanRegister
  rcases hdeny : deny (.read .machine) with _ | code
  · rw [hdeny] at hload
    rw [eval_bind_ok hload, eval_bind, eval_ofExcept]
    rcases checkMachine env r existing with e | u
    · exact .inr ⟨by simp, e, rfl⟩
    · exact .inl ⟨⟨rfl, rfl⟩, rfl⟩
  · rw [hdeny] at hload
    rw [eval_bind_error hload]
    exact .inr ⟨by simp, _, rfl⟩

/-- The registry that a claim saves. -/
def MachineCall.saved (a : MachineCall) (r : MachineRegistry) (installDir : Option JsString) : MachineRegistry :=
  { r with
    state_dir := some a.dir
    install_dir := (installDir.map (normalizeDir a.env)).or r.install_dir
    registered_at := some (r.registered_at.getD a.saveDraws.now)
    updated_at := a.saveDraws.now }

/-- What the registry that a claim saves fixes. -/
def MachineCall.claimed (a : MachineCall) (r : MachineRegistry) {nodeId : JsString} (h : nodeId ≠ []) :
    MachineClaim where
  machine_id := r.machine_id
  created_at := r.created_at
  registered_at := r.registered_at.getD a.saveDraws.now
  node_id := nodeId
  state_dir := a.dir
  node_ne := h
  dir_resolved := ⟨_, _, rfl⟩

namespace MachineCall

variable {a : MachineCall} {c : MachineClaim} {nodeId : JsString} {hid : nodeId ≠ []} {installDir : Option JsString}

theorem holds_saved {r : MachineRegistry} (hr : r.machine_id ≠ []) (h : d .machine =
    some (utf8 (stringifyPretty ((a.saved r installDir).withNode (some (.str nodeId)))))) :
    (a.claimed r hid).Holds (d .machine) :=
  ⟨_, { a.saved r installDir with node_id := some nodeId }, h,
    fun env now => parseMachineRegistry_saved (r := a.saved r installDir) nodeId hr env now, ⟨rfl, rfl, rfl, rfl, rfl⟩⟩

theorem prog_claim (ha : a.request = .claim nodeId hid installDir) : a.prog =
    (assertMachineCanRegister a.env a.draws (some (.str nodeId)) >>= fun r =>
      saveMachineRegistry a.saveDraws.tmp ((a.saved r (installDir.filter fun s => !s.isEmpty)).withNode
        (some (.str nodeId)))) := by
  unfold prog claimMachineNode
  rw [ha]
  rfl

/-- **A claim that returns** has saved what it claims. -/
theorem holds_of_claim (ha : a.request = .claim nodeId hid installDir) (h : a.Succeeds d) :
    ∃ c : MachineClaim, c.node_id = nodeId ∧ c.state_dir = a.dir ∧ c.Holds (after d a .machine) := by
  obtain ⟨u, hu⟩ := h
  have heval : eval [] a.deny a.prog d = (.ok u, after d a) := Prod.ext hu rfl
  rw [prog_claim ha] at heval
  obtain ⟨r, d₁, hassert, hsave⟩ := eval_bind_eq_ok heval
  obtain ⟨r', d₂, hload, hcheck⟩ := eval_bind_eq_ok hassert
  obtain ⟨_, d₃, -, hret⟩ := eval_bind_eq_ok hcheck
  cases hret
  have hmachine := loadOrCreate_machine_id a.uuid_ne hload
  refine ⟨a.claimed r hid, rfl, rfl, ?_⟩
  have hsaved := eval_saveMachineRegistry a.deny d₁ a.saveDraws.tmp
    ((a.saved r (installDir.filter fun s => !s.isEmpty)).withNode (some (.str nodeId)))
  rw [hsave] at hsaved
  rcases hsaved with ⟨-, htext⟩ | ⟨⟨e, he⟩, -⟩
  · exact holds_saved hmachine htext
  · cases he

theorem succeeds_of_eval {r : Unit} {d' : Disk StateFile Bytes} (h : eval [] a.deny a.prog d = (.ok r, d')) :
    a.Succeeds d ∧ after d a = d' := ⟨⟨r, congrArg Prod.fst h⟩, congrArg Prod.snd h⟩

theorem not_succeeds_of_eval {e : JsError} {d' : Disk StateFile Bytes}
    (h : eval [] a.deny a.prog d = (.error e, d')) : ¬ a.Succeeds d ∧ after d a = d' := by
  refine ⟨?_, congrArg Prod.snd h⟩
  rintro ⟨r, hr⟩
  rw [h] at hr
  cases hr

/-- **A claim on a machine without a registry** returns, if the system refuses nothing. -/
theorem claim_succeeds (ha : a.request = .claim nodeId hid installDir) (hdeny : a.deny = allowed)
    (hd : d .machine = none) : a.Succeeds d := by
  have hload := eval_loadMachineRegistry allowed d a.env a.draws.now
  rw [exec_read rfl, hd] at hload
  obtain ⟨d₁, hcreate⟩ := eval_save_allowed a.draws.tmp
    (MachineRegistry.withNode ⟨a.draws.uuid, a.draws.now, a.draws.now, none, none, none, none⟩ none) d
  have hassert : eval [] allowed (assertMachineCanRegister a.env a.draws (some (.str nodeId))) d =
      (.ok ⟨a.draws.uuid, a.draws.now, a.draws.now, none, none, none, none⟩, d₁) := by
    unfold assertMachineCanRegister loadOrCreateMachineRegistry
    rw [eval_bind_ok ((eval_bind_ok hload _).trans (eval_bind_ok hcreate _))]
    rfl
  obtain ⟨d₂, hsave⟩ := eval_save_allowed a.saveDraws.tmp
    ((a.saved ⟨a.draws.uuid, a.draws.now, a.draws.now, none, none, none, none⟩
      (installDir.filter fun s => !s.isEmpty)).withNode (some (.str nodeId))) d₁
  refine ⟨(), ?_⟩
  rw [prog_claim ha, hdeny, eval_bind_ok hassert, hsave]

/-- **A call of `assertMachineCanRegister`** on a registry that makes a claim. -/
theorem assert_after {existing : Option JsString} (ha : a.request = .assert existing) (h : c.Holds (d .machine)) :
    after d a .machine = d .machine ∧ (a.deny (.read .machine) = none →
      (a.Succeeds d ↔ a.dir = c.state_dir ∧ (isText existing = true → existing = some c.node_id))) := by
  obtain ⟨raw, r, hraw, hparse, hmakes⟩ := h
  have hprog : a.prog = assertMachineCanRegister a.env a.draws (existing.map .str) >>= fun _ => .ret () := by
    unfold prog
    rw [ha]
    rfl
  have hcheck := checkMachine_ok_iff a.env hmakes existing
  rcases eval_assert a.deny (existing.map .str) hraw (hparse a.env a.draws.now) with
    ⟨⟨-, hok⟩, heval⟩ | ⟨hno, e, heval⟩
  · obtain ⟨hsucceeds, hafter⟩ := succeeds_of_eval (a := a) (by rw [hprog, eval_bind_ok heval]; rfl)
    exact ⟨congrFun hafter _, fun _ => iff_of_true hsucceeds (hcheck.mp hok)⟩
  · obtain ⟨hfails, hafter⟩ := not_succeeds_of_eval (a := a) (by rw [hprog, eval_bind_error heval])
    exact ⟨congrFun hafter _, fun hdeny => iff_of_false hfails fun hyes => hno ⟨hdeny, hcheck.mpr hyes⟩⟩

/-- **A claim** on a registry that makes one: the same claim again, or an exception and no change. -/
theorem claim_after (ha : a.request = .claim nodeId hid installDir) (h : c.Holds (d .machine)) :
    c.Holds (after d a .machine) ∧ (nodeId ≠ c.node_id ∨ a.dir ≠ c.state_dir →
      ¬ a.Succeeds d ∧ after d a .machine = d .machine) := by
  have hkeep := h
  obtain ⟨raw, r, hraw, hparse, hmakes⟩ := h
  have hcheck := checkMachine_ok_iff a.env hmakes (some nodeId)
  rcases eval_assert a.deny (some (.str nodeId)) hraw (hparse a.env a.draws.now) with
    ⟨⟨-, hok⟩, heval⟩ | ⟨-, e, heval⟩
  · obtain ⟨hdir, hnode⟩ := hcheck.mp hok
    have hnode : nodeId = c.node_id := Option.some.inj (hnode (by simpa [isText] using hid))
    have hdir : a.dir = c.state_dir := hdir
    have hsave := eval_saveMachineRegistry a.deny d a.saveDraws.tmp
      ((a.saved r (installDir.filter fun s => !s.isEmpty)).withNode (some (.str nodeId)))
    have hafter : after d a = (eval [] a.deny (saveMachineRegistry a.saveDraws.tmp
        ((a.saved r (installDir.filter fun s => !s.isEmpty)).withNode (some (.str nodeId)))) d).2 := by
      unfold after
      rw [prog_claim ha, eval_bind_ok heval]
    rw [← hafter] at hsave
    have hid' : r.machine_id ≠ [] := machine_id_of_parse (hparse a.env [])
    refine ⟨?_, fun hother => ?_⟩
    · rcases hsave with ⟨-, htext⟩ | ⟨-, hsame⟩
      · rw [htext]
        refine ⟨_, { a.saved r (installDir.filter fun s => !s.isEmpty) with node_id := some nodeId }, rfl,
          fun env now => parseMachineRegistry_saved (r := a.saved r (installDir.filter fun s => !s.isEmpty)) nodeId
            hid' env now, hmakes.machine_id, hmakes.created_at, ?_, congrArg some hnode, congrArg some hdir⟩
        show some (r.registered_at.getD a.saveDraws.now) = _
        rw [hmakes.registered_at]
        rfl
      · rw [hsame]
        exact hkeep
    · rcases hother with hother | hother
      · exact absurd hnode hother
      · exact absurd hdir hother
  · obtain ⟨hfails, hafter⟩ := not_succeeds_of_eval (a := a) (by rw [prog_claim ha, eval_bind_error heval])
    rw [hafter]
    exact ⟨hkeep, fun _ => ⟨hfails, rfl⟩⟩

/-- **A call keeps what the registry says.** -/
theorem holds_after (h : c.Holds (d .machine)) : c.Holds (after d a .machine) := by
  rcases ha : a.request with existing | ⟨nodeId, hid, installDir⟩
  · rw [(assert_after ha h).1]
    exact h
  · exact (claim_after ha h).1

end MachineCall

open MachineCall

/-- **A machine claim is permanent.** -/
theorem claim_is_permanent (d : Disk StateFile Bytes) (pre post : List MachineCall) (first : MachineCall)
    (nodeId : JsString) (hid : nodeId ≠ []) (installDir : Option JsString)
    (hfirst : first.request = .claim nodeId hid installDir) (hok : first.Succeeds (run after d pre)) :
    ∃ c : MachineClaim, c.node_id = nodeId ∧ c.state_dir = first.dir ∧
      (∀ mid, mid <+: post → c.Holds (run after d (pre ++ first :: mid) .machine)) ∧
      ∀ mid call rest, post = mid ++ call :: rest →
        (∀ n hn dir, call.request = .claim n hn dir → n ≠ nodeId ∨ call.dir ≠ first.dir →
          ¬ call.Succeeds (run after d (pre ++ first :: mid)) ∧
          run after d (pre ++ first :: (mid ++ [call])) .machine = run after d (pre ++ first :: mid) .machine) ∧
        ∀ existing, call.request = .assert existing → call.deny (.read .machine) = none →
          (call.Succeeds (run after d (pre ++ first :: mid)) ↔
            call.dir = first.dir ∧ (isText existing = true → existing = some nodeId)) := by
  obtain ⟨c, rfl, hdir, hholds⟩ := holds_of_claim hfirst hok
  have hrun : ∀ mid : List MachineCall, c.Holds (run after d (pre ++ first :: mid) .machine) := by
    intro mid
    induction mid using List.reverseRecOn with
    | nil =>
      rw [run_concat]
      exact hholds
    | append_singleton mid call ih =>
      rw [← List.cons_append, ← List.append_assoc, run_concat]
      exact holds_after ih
  refine ⟨c, rfl, hdir, fun mid _ => hrun mid, ?_⟩
  rintro mid call rest -
  rw [← hdir]
  refine ⟨fun n hn dir hcall hother => ?_, fun existing hcall hdeny => (assert_after hcall (hrun mid)).2 hdeny⟩
  rw [← List.cons_append, ← List.append_assoc, run_concat]
  exact (claim_after hcall (hrun mid)).2 hother

namespace Sample

def claimEnv : NodeEnv where
  NODE_PORT := none
  CONSENSUS_NODE_INSTALL_DIR := none
  stateDir := js "/s"
  machineRegistryPath := js "/m"
  cwd := js "/"

/-- A call in the directory `/s`, which the system lets pass. -/
def machineCall (request : MachineRequest) : MachineCall where
  env := claimEnv
  draws := ⟨js "u", js "t0", 0⟩
  saveDraws := ⟨js "v", js "t1", 1⟩
  uuid_ne := by decide
  deny := allowed
  request := request

def claimed : MachineCall := machineCall (.claim (js "n1") (by decide) none)

def claimedAgain : MachineCall := machineCall (.claim (js "n2") (by decide) none)

/-- On an empty disk. -/
theorem second_claim_refused : ¬ claimedAgain.Succeeds (run after (fun _ => none) ([] ++ [claimed])) := by
  obtain ⟨c, -, -, -, hlater⟩ := claim_is_permanent (fun _ => none) [] [claimedAgain] claimed (js "n1") (by decide)
    none rfl (claim_succeeds rfl rfl rfl)
  exact ((hlater [] claimedAgain [] rfl).1 _ _ _ rfl (.inl (by decide))).1

end Sample

end ConsensusNode.Node
