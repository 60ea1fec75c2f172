import ConsensusNode.Js.Canonical
import ConsensusNode.Js.OrdMap
import ConsensusNode.Node.State

/-! # The registration of the node

`registration/join.ts`: `registerNode` asks the orchestrator to register the node and stores the result in
the configuration, with the key of the orchestrator that is pinned for tickets. The request is not
modelled: the response is an input, and so is whether the identity and the join authorization are there
(both are files of their own).

* `resolvePinnedPubkey`: a response without a key keeps the pinned one.
* `meets_registerNode`: what a registration does to `config.json`, wherever it is stopped. -/

namespace ConsensusNode.Node

open Js Lib FileProg

/-! ### The registration -/

/-- `v` unless it is `null` or `undefined`. -/
def nullish? : Option Json → Option Json
  | some .null => none
  | v => v

def resolvePinnedPubkey (existing fromResponse : Option Json) : Json :=
  ((nullish? fromResponse).or (nullish? existing)).getD .null

/-- One call of `registerNode`: what it is given, and what it draws. -/
structure Registration where
  /-- The identity is loaded and the join authorization is valid. -/
  ready : Bool
  /-- The status and the text of the join response; `none` if `fetch` throws. -/
  answer : Option (ℕ × JsString)
  registered_at : JsString
  asserting : MachineDraws
  claiming : MachineDraws
  saving : MachineDraws

/-- `k in v`, for a name that no built-in object defines. -/
def hasKey (v : Json) (k : JsString) : Except JsError Bool :=
  match v with
  | .obj fs => .ok (fs.lookup k).isSome
  | .arr _ => .ok false
  | _ => .error .native

/-- The text of a value in a template. -/
def templateText : Option Json → Except JsError JsString
  | none => .ok (js "undefined")
  | some v => toStr v

/-- `body && k in body && body[k]`. -/
def truthyField (body : Json) (k : JsString) : Except JsError Bool :=
  if Json.truthy (some body) then
    (hasKey body k).map fun found => found && Json.truthy (body.field? k)
  else .ok false

/-- `response.json().catch(() => null)`. -/
def responseBody (text : JsString) : Json := (parse text).getD .null

/-- What a refused join request is reported with. -/
def failureDetail (status : ℕ) (body : Json) : Except JsError JsString := do
  if ← truthyField body (js "message") then templateText (body.field? (js "message"))
  else if ← truthyField body (js "error") then templateText (body.field? (js "error"))
  else return js "HTTP " ++ decText status

/-- The body of a join response that is accepted. -/
def acceptResponse (status : ℕ) (text : JsString) : Except JsError Json :=
  let body := responseBody text
  if 200 ≤ status ∧ status ≤ 299 then do
    let success ← truthyField body (js "success")
    if success then return body else throw (.thrown (js "Node join failed: malformed response"))
  else do
    let detail ← failureDetail status body
    throw (.thrown (js "Node join failed: " ++ detail))

/-- The response: an exception if `fetch` throws or the response is refused. -/
def Registration.response (r : Registration) : Except JsError Json :=
  match r.answer with
  | none => .error .native
  | some (status, text) => acceptResponse status text

/-- The server must not answer with another node. -/
def checkNode (machine : MachineRegistry) (nodeId : Option Json) : Except JsError Unit :=
  if isText machine.node_id && machine.node_id.map Json.str != nodeId then do
    let returned ← templateText nodeId
    throw (.thrown (js "This machine is already registered as " ++ machine.node_id.getD [] ++
      js "; server returned " ++ returned))
  else return ()

/-- `{...v}`. -/
def spread (v : Json) : List (JsString × Json) := (objectEntries v).toOption.getD []

/-- The configuration that `registerNode` saves. -/
def mergedConfig (existing body : Json) (machine_id registered_at : JsString) : Json :=
  .obj (definedFields (fromEntries ((spread existing).map (fun e => (e.1, some e.2)) ++
    [(js "node_id", body.field? (js "node_id")), (js "machine_id", some (.str machine_id)),
      (js "domain", body.field? (js "domain")), (js "region", body.field? (js "region")),
      (js "ipv4", body.field? (js "ipv4")), (js "ipv6", body.field? (js "ipv6")),
      (js "port", body.field? (js "port")), (js "registered_at", some (.str registered_at)),
      (js "benchmark_score", body.field? (js "benchmark_score")),
      (js "orchestrator_pubkey", some (resolvePinnedPubkey (existing.field? (js "orchestrator_pubkey"))
        (body.field? (js "orchestrator_pubkey"))))])))

/-- `process.env.CONSENSUS_NODE_INSTALL_DIR?.trim() || undefined`. -/
def installDir (env : NodeEnv) : Option JsString :=
  let dir := trim (env.CONSENSUS_NODE_INSTALL_DIR.getD [])
  if dir.isEmpty then none else some dir

/-- `registerNode`; the payload of the request is left out, the response is an input. -/
def registerNode (env : NodeEnv) (r : Registration) : NodeProg Json := do
  ofExcept (if r.ready then .ok () else .error .native)
  let existing ← loadConfig env
  let existingNodeId ← ofExcept (existing.get (js "node_id"))
  let machine ← assertMachineCanRegister env r.asserting existingNodeId
  let body ← ofExcept r.response
  ofExcept (checkNode machine (body.field? (js "node_id")))
  saveConfig (mergedConfig existing body machine.machine_id r.registered_at)
  claimMachineNode env r.claiming r.saving (body.field? (js "node_id")) (installDir env)
  return body

/-! ### What is written is read back -/

theorem readable_spread {v : Json} (hv : Readable v) : ∀ e ∈ spread v, Readable e.2 := by
  rcases v with _ | b | x | s | xs | fs
  · intro e he
    cases he
  · intro e he
    cases he
  · intro e he
    cases he
  · intro e he
    have he : e ∈ s.mapIdx fun i c => (decText i, Json.str [c]) := he
    obtain ⟨i, hi, rfl⟩ := List.mem_mapIdx.mp he
    exact readable_str _
  · intro e he
    have he : e ∈ xs.mapIdx fun i w => (decText i, w) := he
    obtain ⟨i, hi, rfl⟩ := List.mem_mapIdx.mp he
    exact hv.element (List.getElem_mem hi)
  · exact (readable_obj_iff.mp hv).2.2

theorem readable_definedFields {es : List (JsString × Option Json)}
    (h : ∀ e ∈ es, ∀ v, e.2 = some v → Readable v) :
    Readable (.obj (definedFields (fromEntries es))) := by
  have hsub := sublist_keys_definedFields (fromEntries es)
  refine readable_obj_iff.mpr ⟨(nodup_fromEntries es).sublist hsub, ?_, ?_⟩
  · exact ordered_iff_keys.mpr ((ordered_iff_keys.mp (ordered_fromEntries es)).sublist hsub)
  · intro e he
    obtain ⟨e', he', hv⟩ := List.mem_filterMap.mp he
    obtain ⟨v, hsome, rfl⟩ := Option.map_eq_some_iff.mp hv
    exact h e' (mem_of_mem_fromEntries he') v hsome

/-! ### The configuration that is stored -/

theorem isDouble_of_map {α : Type} {f : α → ℚ} {o : Option α} {x : JsNumber}
    (h : o.map (fun a => ofRat (f a)) = some x) : IsDouble x := by
  obtain ⟨a, -, rfl⟩ := Option.map_eq_some_iff.mp h
  exact isDouble_ofRat _

theorem isDouble_numberOfText {s : JsString} {x : JsNumber} (h : numberOfText s = some x) : IsDouble x := by
  have hinf : ∀ y : JsNumber, some y = some x → (∀ q hq, y ≠ .fin q hq) → IsDouble x := by
    rintro y hy hne q hq rfl
    exact absurd (Option.some.inj hy) (hne q hq)
  unfold numberOfText at h
  split at h
  · cases h
    exact isDouble_ofInt (by decide)
  · simp only at h
    repeat' split at h
    all_goals first
      | exact isDouble_of_map h
      | exact hinf _ h (by simp)

theorem isDouble_fallbackPort {env : NodeEnv} {x : JsNumber} (h : fallbackPort env = some x) : IsDouble x := by
  unfold fallbackPort at h
  split at h
  · exact isDouble_numberOfText h
  · cases h
    exact isDouble_ofInt (by decide)

theorem readable_defaultConfig (env : NodeEnv) : Readable (defaultConfig env) := by
  refine readable_obj_iff.mpr ⟨by simp, by simp [Ordered], ?_⟩
  intro e he
  obtain rfl := List.mem_singleton.mp he
  rcases hport : fallbackPort env with _ | x
  · exact ⟨trivial, trivial⟩
  · exact ⟨trivial, fixes_num (isDouble_fallbackPort hport)⟩

theorem readable_configOf (env : NodeEnv) (content : Option Bytes) : Readable (configOf env content) := by
  unfold configOf
  rcases hc : content.bind fun raw => parse (decodeUtf8 raw) with _ | v
  · exact readable_defaultConfig env
  · obtain ⟨raw, -, hraw⟩ := Option.bind_eq_some_iff.mp hc
    exact readable_parse hraw

theorem readable_responseBody (text : JsString) : Readable (responseBody text) := by
  unfold responseBody
  rcases hp : parse text with _ | v
  · exact ⟨trivial, trivial⟩
  · exact readable_parse hp

theorem configOf_configText (env : NodeEnv) {config : Json} (h : Readable config) :
    configOf env (some (configText config)) = finitize config := by
  unfold configOf configText
  rw [Option.bind_some, parse_decode_pretty h.1 h.2]
  rfl

section Merged

variable {existing body : Json} {machine_id registered_at : JsString}

theorem nullish?_eq_some {a : Option Json} {v : Json} : nullish? a = some v ↔ a = some v ∧ v ≠ .null := by
  unfold nullish?
  split
  · constructor
    · intro h
      cases h
    · rintro ⟨h, hv⟩
      exact absurd (Option.some.inj h).symm hv
  · rename_i hne
    constructor
    · intro h
      refine ⟨h, ?_⟩
      rintro rfl
      exact hne h
    · exact fun h => h.1

theorem readable_resolvePinnedPubkey {a b : Option Json} (ha : ∀ v, a = some v → Readable v)
    (hb : ∀ v, b = some v → Readable v) : Readable (resolvePinnedPubkey a b) := by
  unfold resolvePinnedPubkey
  rcases hor : (nullish? b).or (nullish? a) with _ | v
  · exact ⟨trivial, trivial⟩
  · rcases Option.or_eq_some_iff.mp hor with h | ⟨-, h⟩
    · exact hb v (nullish?_eq_some.mp h).1
    · exact ha v (nullish?_eq_some.mp h).1

theorem readable_mergedConfig (he : Readable existing) (hb : Readable body) :
    Readable (mergedConfig existing body machine_id registered_at) := by
  have hfield : ∀ k v, body.field? k = some v → Readable v := fun k v h => hb.field h
  refine readable_definedFields fun e hmem v hv => ?_
  rcases List.mem_append.mp hmem with hmem | hmem
  · obtain ⟨e', he', rfl⟩ := List.mem_map.mp hmem
    cases hv
    exact readable_spread he e' he'
  · simp only [List.mem_cons, List.not_mem_nil, or_false] at hmem
    rcases hmem with rfl | rfl | rfl | rfl | rfl | rfl | rfl | rfl | rfl | rfl
    · exact hfield _ v hv
    · cases hv
      exact readable_str _
    · exact hfield _ v hv
    · exact hfield _ v hv
    · exact hfield _ v hv
    · exact hfield _ v hv
    · exact hfield _ v hv
    · cases hv
      exact readable_str _
    · exact hfield _ v hv
    · cases hv
      exact readable_resolvePinnedPubkey (fun v h => he.field h) (hfield _)

/-- A field of an object literal is that of its last entry. -/
theorem lookup_literal (es : List (JsString × Option Json)) (k : JsString) :
    ∀ fs : List (JsString × Option Json), (definedFields (fromEntries (es ++ fs))).lookup k =
      (fs.reverse.lookup k).getD ((definedFields (fromEntries es)).lookup k) := by
  intro fs
  induction fs using List.reverseRecOn with
  | nil => simp
  | append_singleton fs e ih =>
    have hset : fromEntries (es ++ (fs ++ [e])) = setField (fromEntries (es ++ fs)) e.1 e.2 := by
      unfold fromEntries
      rw [← List.append_assoc, List.foldl_append]
      rfl
    rw [lookup_definedFields (nodup_fromEntries _)] at ih ⊢
    rw [hset, lookup_setField, List.reverse_append, List.reverse_singleton, List.singleton_append,
      List.lookup_cons]
    by_cases hk : k = e.1
    · simp [hk]
    · have hb : (k == e.1) = false := by simpa using hk
      rw [if_neg hk, hb, ih]

theorem mergedConfig_node_id : (mergedConfig existing body machine_id registered_at).field? (js "node_id") =
    body.field? (js "node_id") := by
  refine (lookup_literal _ _ _).trans ?_
  rfl

theorem mergedConfig_orchestrator_pubkey :
    (mergedConfig existing body machine_id registered_at).field? (js "orchestrator_pubkey") =
      some (resolvePinnedPubkey (existing.field? (js "orchestrator_pubkey"))
        (body.field? (js "orchestrator_pubkey"))) := by
  refine (lookup_literal _ _ _).trans ?_
  rfl

end Merged

/-! ### What a registration does to the configuration -/

/-- The body of the response, if there is one. -/
def Registration.body (r : Registration) : Json := (r.answer.map fun a => responseBody a.2).getD .null

theorem response_eq_body {r : Registration} {b : Json} (h : r.response = .ok b) : b = r.body := by
  unfold Registration.response at h
  unfold Registration.body
  rcases ha : r.answer with _ | ⟨status, text⟩
  · rw [ha] at h
    cases h
  · rw [ha] at h
    have h : acceptResponse status text = .ok b := h
    unfold acceptResponse at h
    simp only at h
    split at h
    · obtain ⟨success, -, h⟩ := bind_eq_ok.mp h
      split at h
      · cases h
        rfl
      · cases h
    · obtain ⟨detail, -, h⟩ := bind_eq_ok.mp h
      cases h

theorem readable_body (r : Registration) : Readable r.body := by
  unfold Registration.body
  rcases r.answer with _ | ⟨status, text⟩
  · exact ⟨trivial, trivial⟩
  · exact readable_responseBody text

/-- The content of `config.json` that the registration writes. -/
def Writes (env : NodeEnv) (r : Registration) (before content : Option Bytes) : Prop :=
  ∃ machine_id, content =
    some (configText (mergedConfig (configOf env before) r.body machine_id r.registered_at))

/-- Stopped anywhere, a registration has left the configuration alone, or is in the middle of writing
it, or has written the merged one. -/
theorem meets_registerNode (env : NodeEnv) (r : Registration) (d : Disk StateFile Bytes) :
    Meets [] allowed seeConfig
      (fun changed o d' => isTorn o = true ∨ (changed = false ∧ d' .config = d .config) ∨
        (changed = true ∧ Writes env r (d .config) (d' .config)))
      (fun b changed d' => b = r.body ∧ changed = true ∧ Writes env r (d .config) (d' .config))
      (registerNode env r) false d := by
  have hstop : ∀ d' : Disk StateFile Bytes, d' .config = d .config → ∀ o : Option NodeOp,
      isTorn o = true ∨ (false = false ∧ d' .config = d .config) ∨
        (false = true ∧ Writes env r (d .config) (d' .config)) :=
    fun d' hd' o => .inr (.inl ⟨rfl, hd'⟩)
  unfold registerNode
  rw [meets_bind]
  refine meets_ofExcept (hstop d rfl _) fun _ _ => ?_
  rw [meets_bind]
  refine meets_loadConfig (hstop d rfl) ?_
  rw [meets_bind]
  refine meets_ofExcept (hstop d rfl _) fun existingNodeId _ => ?_
  rw [meets_bind]
  refine (spares_assertMachineCanRegister env r.asserting existingNodeId).meets
    seeConfig_of_not_changes rfl |>.mono ?_ ?_
  · rintro changed o d' ⟨rfl, hd'⟩
    exact hstop d' hd' o
  rintro machine changed d' ⟨rfl, hd'⟩
  rw [meets_bind]
  refine meets_ofExcept (hstop d' hd' _) fun body hbody => ?_
  obtain rfl := response_eq_body hbody
  rw [meets_bind]
  refine meets_ofExcept (hstop d' hd' _) fun _ _ => ?_
  rw [meets_bind]
  refine meets_saveConfig (hstop d' hd') (fun o _ ho => .inl ho) fun d'' hd'' => ?_
  have hwrites : Writes env r (d .config) (d'' .config) := ⟨machine.machine_id, hd''⟩
  rw [meets_bind]
  refine (spares_claimMachineNode env r.claiming r.saving _ _).meets
    seeConfig_of_not_changes rfl |>.mono ?_ ?_
  · rintro changed o d₃ ⟨rfl, h⟩
    exact .inr (.inr ⟨rfl, h ▸ hwrites⟩)
  · rintro _ changed d₃ ⟨rfl, h⟩
    exact ⟨rfl, rfl, h ▸ hwrites⟩

end ConsensusNode.Node
