import ConsensusNode.Lib.Run
import ConsensusNode.Node.State

/-! # Secret files

`writeSecretFile` and `readSecretFile` of `node/secret-store.ts` as programs on files, with the data key
they are given. A secret is written beside its file and renamed; a read seals a legacy file in place. The
random nonce and the suffix of the temporary file belong to the call.

* `meets_writeSecretFile`, `meets_readSecretFile`: what a call does to the file, wherever it is stopped.
* `secret_files_keep_value`: over any calls, each stopped anywhere, a read returns the last secret whose
  write was completed, or what was in the file before; and not under another slot. -/

namespace ConsensusNode.Node

open Js Lib Lib.Run FileProg

variable (p : Platform) (key : Bytes)

/-- A slot with its file and the directory of the file; temporary files have other names. -/
structure SecretSlot where
  name : JsString
  path : JsString
  dir : StateFile
  file : StateFile
  notTmp : ∀ n, file ≠ .tmp n

/-- What a call draws: the nonce of an envelope, and the suffix of a temporary file. -/
structure SecretDraws where
  nonce : Bytes
  tmp : ℕ
  nonce_length : nonce.length = NONCE_BYTES

/-- The content of a sealed file. -/
def sealedContent (slot plaintext : JsString) (nonce : Bytes) : Bytes :=
  utf8 (stringify (sealSecret p key nonce slot plaintext))

def writeSecretFile (c : SecretDraws) (s : SecretSlot) (plaintext : JsString) : NodeProg Unit := do
  let content := sealedContent p key s.name plaintext c.nonce
  must (.mkdir s.dir)
  writeFile (.tmp c.tmp) content
  must (.rename (.tmp c.tmp) s.file)

/-- The exception of a file that is there but cannot be read. -/
def unreadable (s : SecretSlot) (code : JsString) : JsError :=
  .thrown (js "secret " ++ s.name ++ js " at " ++ s.path ++ js " exists but could not be read (" ++ code ++
    js "). Refusing to treat it as absent.")

/-- `readSecretFile` after the file has been read: an envelope is opened, legacy plaintext is sealed in
place. -/
def openOrSeal (c : SecretDraws) (s : SecretSlot) (content : Bytes) : NodeProg (Option JsString) :=
  match fileEnvelope content with
  | some envelope =>
    match openSecret p key s.name envelope with
    | some plaintext => return some plaintext
    | none => .thrown .native
  | none => do
    let raw := decodeUtf8 content
    writeSecretFile p key c s raw
    return some raw

def readSecretFile (c : SecretDraws) (s : SecretSlot) : NodeProg (Option JsString) := do
  match ← FileProg.call (.read s.file) with
  | .absent => return none
  | .data content => openOrSeal p key c s content
  | .denied code => .thrown (unreadable s code)
  | .done => .thrown .native

/-! ### Calls, each stopped anywhere -/

inductive SecretCall where
  | write (plaintext : JsString) (text : WellFormed plaintext)
  | read

def SecretCall.prog (c : SecretDraws) (s : SecretSlot) : SecretCall → NodeProg (Option JsString)
  | .write plaintext _ => do
    writeSecretFile p key c s plaintext
    return none
  | .read => readSecretFile p key c s

/-- A call that is stopped after some steps, unless it has ended before; `deny` says which of its operations
fail. -/
structure SecretEvent where
  call : SecretCall
  draws : SecretDraws
  deny : NodeOp → Option JsString
  steps : ℕ

/-- The files, and the secret that the file must hold; `none` if it has never existed. -/
structure SecretState where
  disk : Disk StateFile Bytes
  value : Option JsString

namespace SecretEvent

variable (slot : SecretSlot) (e : SecretEvent) (d : Disk StateFile Bytes)

/-- The program and the files when the call is stopped. -/
def stopped : NodeProg (Option JsString) × Disk StateFile Bytes :=
  machine.alone [] e.deny e.steps (e.call.prog p key e.draws slot, d)

/-- What the call has returned. -/
def result : Option (Option JsString) := (e.stopped p key slot d).1.result?

end SecretEvent

/-- A write is completed with its rename, which is its last operation. -/
def secretStep (slot : SecretSlot) (s : SecretState) (e : SecretEvent) : SecretState where
  disk := (e.stopped p key slot s.disk).2
  value := match e.call with
    | .write plaintext _ => if (e.result p key slot s.disk).isSome then some plaintext else s.value
    | .read => s.value

/-! ### What a file holds -/

/-- The file is an envelope for the slot with this secret. -/
def Sealed (slot : SecretSlot) (plaintext : JsString) (content : Option Bytes) : Prop :=
  WellFormed plaintext ∧ ∃ nonce, nonce.length = NONCE_BYTES ∧
    content = some (sealedContent p key slot.name plaintext nonce)

/-- The secret of a file that is absent, sealed for its slot, or a legacy text. -/
inductive Holds (slot : SecretSlot) : Option Bytes → Option JsString → Prop
  | absent : Holds slot none none
  | sealed {content : Option Bytes} {plaintext : JsString} (h : Sealed p key slot plaintext content) :
      Holds slot content (some plaintext)
  | legacy {content : Bytes} (h : fileEnvelope content = none) :
      Holds slot (some content) (some (decodeUtf8 content))

/-- An ideal cipher with this key opens what it has sealed, and only with the associated data that it was
sealed with. -/
structure IdealAead : Prop where
  opens : ∀ nonce aad b : Bytes, nonce.length = NONCE_BYTES →
    p.decrypt key nonce aad (p.encrypt key nonce aad b) = some b
  bound : ∀ nonce aad aad' b : Bytes, nonce.length = NONCE_BYTES → aad' ≠ aad →
    p.decrypt key nonce aad' (p.encrypt key nonce aad b) = none

variable {p key} {slot : SecretSlot}

theorem openSecret_sealed (hp : IdealAead p key) {nonce : Bytes} (hnonce : nonce.length = NONCE_BYTES)
    {plaintext : JsString} (htext : WellFormed plaintext) (name : JsString) :
    openSecret p key name
        ⟨base64 nonce, base64 (p.encrypt key nonce (utf8 name) (utf8 plaintext))⟩ = some plaintext := by
  unfold openSecret
  simp only [decodeBase64_base64, hp.opens _ _ _ hnonce, Option.map_some, decodeUtf8_utf8 htext]

/-- **An envelope does not open in another slot.** -/
theorem openSecret_other (hp : IdealAead p key) {nonce : Bytes} (hnonce : nonce.length = NONCE_BYTES)
    {name other : JsString} (hname : WellFormed name) (hother : WellFormed other) (hne : other ≠ name)
    (plaintext : JsString) :
    openSecret p key other
      ⟨base64 nonce, base64 (p.encrypt key nonce (utf8 name) (utf8 plaintext))⟩ = none := by
  have haad : utf8 other ≠ utf8 name := by
    intro h
    refine hne ?_
    rw [← decodeUtf8_utf8 hother, h, decodeUtf8_utf8 hname]
  unfold openSecret
  simp only [decodeBase64_base64, hp.bound _ _ _ _ hnonce haad, Option.map_none]

theorem Sealed.content {plaintext : JsString} {content : Option Bytes} (h : Sealed p key slot plaintext content) :
    ∃ b, content = some b := by
  obtain ⟨-, nonce, -, hcontent⟩ := h
  exact ⟨_, hcontent⟩

/-- A sealed file is an envelope that opens to its secret. -/
theorem Sealed.envelope (hp : IdealAead p key) {plaintext : JsString} {b : Bytes}
    (h : Sealed p key slot plaintext (some b)) :
    ∃ envelope, fileEnvelope b = some envelope ∧ openSecret p key slot.name envelope = some plaintext := by
  obtain ⟨htext, nonce, hnonce, hb⟩ := h
  obtain rfl := Option.some.inj hb
  exact ⟨_, fileEnvelope_seal _ _ _ _, openSecret_sealed hp hnonce htext _⟩

/-! ### One call -/

/-- Nothing is watched but the files. -/
def unwatched (_ : Unit) (_ : NodeOp) : Unit := ()

section Meets

variable {deny : NodeOp → Option JsString} {C : Unit → Option NodeOp → Disk StateFile Bytes → Prop}
  {d : Disk StateFile Bytes}

theorem meets_must {Q : Unit → Unit → Disk StateFile Bytes → Prop} {o : NodeOp} (hstop : C () (some o) d)
    (hthrow : (exec [] deny d o).1 ≠ .done → C () none (exec [] deny d o).2)
    (hdone : (exec [] deny d o).1 = .done → Q () () (exec [] deny d o).2) :
    Meets [] deny unwatched C Q (must o) () d := by
  refine ⟨hstop, ?_⟩
  rcases hans : (exec [] deny d o).1 with _ | b | _ | code
  · exact hdone hans
  · exact hthrow (by rw [hans]; simp)
  · exact hthrow (by rw [hans]; simp)
  · exact hthrow (by rw [hans]; simp)

/-- What a write does to the file of the slot, wherever it is stopped: nothing until it is completed. -/
theorem meets_writeSecretFile {Q : Unit → Unit → Disk StateFile Bytes → Prop} (c : SecretDraws)
    (plaintext : JsString) (hC : ∀ o d', d' slot.file = d slot.file → C () o d')
    (hQ : ∀ d', d' slot.file = some (sealedContent p key slot.name plaintext c.nonce) → Q () () d') :
    Meets [] deny unwatched C Q (writeSecretFile p key c slot plaintext) () d := by
  have htmp : (StateFile.tmp c.tmp) ≠ slot.file := fun h => slot.notTmp _ h.symm
  have hkeep : ∀ (o : NodeOp) (d' : Disk StateFile Bytes), o.changes slot.file = false →
      d' slot.file = d slot.file → (exec [] deny d' o).2 slot.file = d slot.file :=
    fun o d' ho hd' => (exec_of_not_changes ho).trans hd'
  have hmkdir : (FsOp.mkdir slot.dir : NodeOp).changes slot.file = false := rfl
  have htruncate : (FsOp.truncate (.tmp c.tmp) : NodeOp).changes slot.file = false := by
    simpa [FsOp.changes] using htmp
  have hwrite : (FsOp.write (.tmp c.tmp) (sealedContent p key slot.name plaintext c.nonce) :
      NodeOp).changes slot.file = false := by
    simpa [FsOp.changes] using htmp
  -- the directory
  refine (meets_bind _ _ _ _).mpr (meets_must (hC _ _ rfl) (fun _ => hC _ _ (hkeep _ _ hmkdir rfl)) fun _ => ?_)
  generalize hd1 : (exec [] deny d (.mkdir slot.dir)).2 = d1
  have h1 : d1 slot.file = d slot.file := hd1 ▸ hkeep _ _ hmkdir rfl
  -- the temporary file
  refine (meets_bind _ _ _ _).mpr ((meets_bind _ _ _ _).mpr (meets_must (hC _ _ h1)
    (fun _ => hC _ _ (hkeep _ _ htruncate h1)) fun _ => ?_))
  generalize hd2 : (exec [] deny d1 (.truncate (.tmp c.tmp))).2 = d2
  have h2 : d2 slot.file = d slot.file := hd2 ▸ hkeep _ _ htruncate h1
  refine meets_must (hC _ _ h2) (fun _ => hC _ _ (hkeep _ _ hwrite h2)) fun hdone => ?_
  have hcontent := exec_write_done hdone
  generalize hd3 : (exec [] deny d2 (.write (.tmp c.tmp) _)).2 = d3 at hcontent ⊢
  have h3 : d3 slot.file = d slot.file := hd3 ▸ hkeep _ _ hwrite h2
  -- the rename
  refine meets_must (hC _ _ h3) (fun hfails => ?_) fun hdone => hQ _ (exec_rename_done hcontent hdone)
  rw [exec_rename_fails hfails]
  exact hC _ _ h3

theorem openOrSeal_sealed (hp : IdealAead p key) (c : SecretDraws) {plaintext : JsString} {content : Bytes}
    (h : Sealed p key slot plaintext (some content)) :
    openOrSeal p key c slot content = .ret (some plaintext) := by
  obtain ⟨envelope, henvelope, hopen⟩ := h.envelope hp
  unfold openOrSeal
  rw [henvelope]
  simp only [hopen]
  rfl

theorem openOrSeal_legacy (c : SecretDraws) {content : Bytes} (h : fileEnvelope content = none) :
    openOrSeal p key c slot content = (do
      writeSecretFile p key c slot (decodeUtf8 content)
      return some (decodeUtf8 content)) := by
  unfold openOrSeal
  rw [h]

theorem readSecretFile_data (c : SecretDraws) (slot : SecretSlot) (content : Bytes) :
    (readSecretFile p key c slot).resume (.data content) = openOrSeal p key c slot content := rfl

/-- What a read does, wherever it is stopped: the file holds its secret all the time, and if the read returns
it, sealed. -/
theorem meets_readSecretFile (hp : IdealAead p key) (c : SecretDraws) {value : Option JsString}
    (h : Holds p key slot (d slot.file) value) :
    Meets [] deny unwatched (fun _ _ d' => Holds p key slot (d' slot.file) value)
      (fun r _ d' => r = value ∧ Holds p key slot (d' slot.file) value ∧
        ∀ plaintext, r = some plaintext → Sealed p key slot plaintext (d' slot.file))
      (readSecretFile p key c slot) () d := by
  refine ⟨h, ?_⟩
  show Meets _ _ _ _ _ ((readSecretFile p key c slot).resume (exec [] deny d (.read slot.file)).1) _ _
  rcases hdeny : deny (.read slot.file) with _ | code
  swap
  · rw [exec_denied hdeny]
    exact h
  rw [exec_read hdeny]
  have hfile := h
  generalize hcontent : d slot.file = content at h
  cases h with
  | absent => exact ⟨rfl, hfile, nofun⟩
  | sealed hsealed =>
    rename_i plaintext
    obtain ⟨b, rfl⟩ := hsealed.content
    dsimp only
    rw [readSecretFile_data, openOrSeal_sealed hp c hsealed]
    refine ⟨rfl, hfile, ?_⟩
    rintro _ ⟨⟩
    exact hcontent ▸ hsealed
  | legacy hlegacy =>
    rename_i content
    dsimp only
    rw [readSecretFile_data, openOrSeal_legacy c hlegacy]
    refine (meets_bind _ _ _ _).mpr (meets_writeSecretFile c _ ?_ ?_)
    · intro _ d' hd'
      rw [hd']
      exact hfile
    · intro d' hd'
      have hsealed : Sealed p key slot (decodeUtf8 content) (d' slot.file) :=
        ⟨wellFormed_decodeUtf8 content, c.nonce, c.nonce_length, hd'⟩
      refine ⟨rfl, .sealed hsealed, ?_⟩
      rintro _ ⟨⟩
      exact hsealed

end Meets

/-- What a call has done to the file of the slot when it has returned `r`. -/
def SecretCall.Done (p : Platform) (key : Bytes) (slot : SecretSlot) (value r : Option JsString)
    (content : Option Bytes) : SecretCall → Prop
  | .write plaintext _ => Sealed p key slot plaintext content
  | .read => r = value ∧ Holds p key slot content value ∧
      ∀ plaintext, r = some plaintext → Sealed p key slot plaintext content

theorem meets_secretCall (hp : IdealAead p key) (e : SecretEvent) {d : Disk StateFile Bytes}
    {value : Option JsString} (h : Holds p key slot (d slot.file) value) :
    Meets [] e.deny unwatched (fun _ _ d' => Holds p key slot (d' slot.file) value)
      (fun r _ d' => e.call.Done p key slot value r (d' slot.file)) (e.call.prog p key e.draws slot) () d := by
  rcases e.call with ⟨plaintext, htext⟩ | _
  · refine (meets_bind _ _ _ _).mpr (meets_writeSecretFile e.draws plaintext ?_ ?_)
    · intro _ d' hd'
      rw [hd']
      exact h
    · exact fun d' hd' => ⟨htext, e.draws.nonce, e.draws.nonce_length, hd'⟩
  · exact meets_readSecretFile hp e.draws h

/-! ### Runs -/

variable {s : SecretState} {e : SecretEvent}

/-- A call that has returned. -/
theorem stopped_done (hp : IdealAead p key) (h : Holds p key slot (s.disk slot.file) s.value)
    {r : Option JsString} (hres : e.result p key slot s.disk = some r) :
    e.call.Done p key slot s.value r ((e.stopped p key slot s.disk).2 slot.file) :=
  ((meets_secretCall hp e h).alone e.steps).returned hres

/-- A call that is stopped before, or throws. -/
theorem stopped_early (hp : IdealAead p key) (h : Holds p key slot (s.disk slot.file) s.value)
    (hres : e.result p key slot s.disk = none) :
    Holds p key slot ((e.stopped p key slot s.disk).2 slot.file) s.value :=
  ((meets_secretCall hp e h).alone e.steps).stopped hres

theorem holds_step (hp : IdealAead p key) (h : Holds p key slot (s.disk slot.file) s.value) (e : SecretEvent) :
    Holds p key slot ((secretStep p key slot s e).disk slot.file) (secretStep p key slot s e).value := by
  show Holds p key slot ((e.stopped p key slot s.disk).2 slot.file) (match e.call with
    | .write plaintext _ => if (e.result p key slot s.disk).isSome then some plaintext else s.value
    | .read => s.value)
  rcases hres : e.result p key slot s.disk with _ | r
  · have hearly := stopped_early hp h hres
    rcases e.call with ⟨plaintext, htext⟩ | _
    · exact hearly
    · exact hearly
  · have hdone := stopped_done hp h hres
    rcases hcall : e.call with ⟨plaintext, htext⟩ | _
    · rw [hcall] at hdone
      exact .sealed hdone
    · rw [hcall] at hdone
      exact hdone.2.1

theorem holds_run (hp : IdealAead p key) {d : Disk StateFile Bytes} {value : Option JsString}
    (h : Holds p key slot (d slot.file) value) (events : List SecretEvent) :
    Holds p key slot ((run (secretStep p key slot) ⟨d, value⟩ events).disk slot.file)
      (run (secretStep p key slot) ⟨d, value⟩ events).value := by
  induction events using List.reverseRecOn with
  | nil => exact h
  | append_singleton events e ih =>
    rw [run_concat]
    exact holds_step hp ih e

/-- What has a value keeps one. -/
theorem value_of_step (h : (secretStep p key slot s e).value = none) : s.value = none := by
  unfold secretStep at h
  rcases hcall : e.call with ⟨plaintext, htext⟩ | _
  · rw [hcall] at h
    dsimp only at h
    split_ifs at h
    exact h
  · rw [hcall] at h
    exact h

theorem value_of_run {events : List SecretEvent} (h : (run (secretStep p key slot) s events).value = none) :
    s.value = none := by
  induction events generalizing s with
  | nil => exact h
  | cons e events ih => exact value_of_step (ih h)

/-- A file without a value does not exist, and has never existed. -/
theorem never_existed (hp : IdealAead p key) {d : Disk StateFile Bytes} {value : Option JsString}
    (h : Holds p key slot (d slot.file) value) {events earlier : List SecretEvent} (hearlier : earlier <+: events)
    (hnone : (run (secretStep p key slot) ⟨d, value⟩ events).value = none) :
    (run (secretStep p key slot) ⟨d, value⟩ earlier).disk slot.file = none := by
  obtain ⟨later, rfl⟩ := hearlier
  rw [run_append] at hnone
  have hheld := holds_run hp h earlier
  rw [value_of_run hnone] at hheld
  generalize (run (secretStep p key slot) ⟨d, value⟩ earlier).disk slot.file = content at hheld ⊢
  cases hheld
  rfl

/-- What a read returns. -/
theorem read_result (hp : IdealAead p key) (h : Holds p key slot (s.disk slot.file) s.value)
    (hread : e.call = .read) {r : Option JsString} (hres : e.result p key slot s.disk = some r) :
    r = s.value ∧ ∀ plaintext, r = some plaintext →
      Sealed p key slot plaintext ((e.stopped p key slot s.disk).2 slot.file) := by
  have hdone := stopped_done hp h hres
  rw [hread] at hdone
  exact ⟨hdone.1, hdone.2.2⟩

/-- A write of which nothing is refused is completed in four steps. -/
theorem writeSecretFile_alone (c : SecretDraws) (plaintext : JsString) (r : Option JsString)
    (d : Disk StateFile Bytes) :
    (machine.alone [] allowed 4 ((do
      writeSecretFile p key c slot plaintext
      return r : NodeProg (Option JsString)), d)).1 = .ret r := by
  unfold writeSecretFile
  generalize sealedContent p key slot.name plaintext c.nonce = content
  have hrename : (exec [] allowed (Function.update (Function.update d (.tmp c.tmp) (some []))
      (.tmp c.tmp) (some content)) (.rename (.tmp c.tmp) slot.file)).1 = .done := by
    simp [exec, allowed]
  show FileProg.resume (do
    must (.rename (.tmp c.tmp) slot.file)
    return r : NodeProg (Option JsString)) (exec [] allowed (Function.update (Function.update d (.tmp c.tmp)
      (some [])) (.tmp c.tmp) (some content)) (.rename (.tmp c.tmp) slot.file)).1 = _
  rw [hrename]
  rfl

theorem readSecretFile_alone (hp : IdealAead p key) (c : SecretDraws) {d : Disk StateFile Bytes}
    {value : Option JsString} (h : Holds p key slot (d slot.file) value) :
    (machine.alone [] allowed 5 (readSecretFile p key c slot, d)).1 = .ret value := by
  show (machine.alone [] allowed 4 ((readSecretFile p key c slot).resume
    (exec [] allowed d (.read slot.file)).1, (exec [] allowed d (.read slot.file)).2)).1 = .ret value
  rw [exec_read rfl]
  generalize d slot.file = content at h
  cases h with
  | absent => rfl
  | sealed hsealed =>
    rename_i plaintext
    obtain ⟨b, rfl⟩ := hsealed.content
    dsimp only
    rw [readSecretFile_data, openOrSeal_sealed hp c hsealed]
    rfl
  | legacy hlegacy =>
    rename_i content
    dsimp only
    rw [readSecretFile_data, openOrSeal_legacy c hlegacy]
    exact writeSecretFile_alone c _ _ d

/-- A read of which nothing is refused returns. -/
theorem read_returns (hp : IdealAead p key) (h : Holds p key slot (s.disk slot.file) s.value)
    (hread : e.call = .read) (hdeny : ∀ o, e.deny o = none) (hsteps : 5 ≤ e.steps) :
    e.result p key slot s.disk = some s.value := by
  have hallowed : e.deny = allowed := funext hdeny
  obtain ⟨k, hk⟩ := Nat.exists_eq_add_of_le hsteps
  have hret := readSecretFile_alone hp e.draws h
  have hprog : e.call.prog p key e.draws slot = readSecretFile p key e.draws slot := by
    rw [hread]
    rfl
  unfold SecretEvent.result SecretEvent.stopped
  rw [hprog, hallowed, hk, Machine.alone_add, Machine.alone_done _ _ _ (by rw [hret]; rfl), hret]
  rfl

/-! ### Another slot -/

/-- A file sealed for one slot is no legacy text under another one, and its envelope does not open. -/
theorem openOrSeal_other (hp : IdealAead p key) (c : SecretDraws) {other : SecretSlot}
    (hname : WellFormed slot.name) (hother : WellFormed other.name) (hne : other.name ≠ slot.name)
    {plaintext : JsString} {content : Bytes} (h : Sealed p key slot plaintext (some content)) :
    openOrSeal p key c other content = .thrown .native := by
  obtain ⟨-, nonce, hnonce, hcontent⟩ := h
  obtain rfl := Option.some.inj hcontent
  unfold openOrSeal sealedContent
  rw [fileEnvelope_seal]
  simp only [openSecret_other hp hnonce hname hother hne]

/-- **A file sealed for one slot is not read under another one.** -/
theorem readSecretFile_other (hp : IdealAead p key) (c : SecretDraws) {other : SecretSlot}
    (hfile : other.file = slot.file) (hname : WellFormed slot.name) (hother : WellFormed other.name)
    (hne : other.name ≠ slot.name) {d : Disk StateFile Bytes} {plaintext : JsString}
    (h : Sealed p key slot plaintext (d slot.file)) (deny : NodeOp → Option JsString) (n : ℕ) :
    ∃ err, machine.alone [] deny (n + 1) (readSecretFile p key c other, d) = (.thrown err, d) := by
  have hstep : machine.alone [] deny (n + 1) (readSecretFile p key c other, d) =
      machine.alone [] deny n ((readSecretFile p key c other).resume (exec [] deny d (.read other.file)).1,
        (exec [] deny d (.read other.file)).2) := rfl
  rw [hstep]
  rcases hdeny : deny (.read other.file) with _ | code
  · obtain ⟨b, hb⟩ := h.content
    rw [hb] at h
    rw [exec_read hdeny, hfile, hb]
    dsimp only
    rw [readSecretFile_data, openOrSeal_other hp c hname hother hne h]
    exact ⟨_, Machine.alone_done _ _ _ rfl n⟩
  · rw [exec_denied hdeny]
    exact ⟨_, Machine.alone_done _ _ _ rfl n⟩

/-- **Secret files keep their value.** The file of a slot is absent, sealed for the slot, or a legacy text,
and calls of `writeSecretFile` and `readSecretFile` follow, each of them stopped after any number of steps and
with any of its operations refused. A read that returns, returns the last secret whose write was completed,
or what the file held before, and then the file is an envelope that opens to it; it returns `null` only if
the file has never existed. A read that runs to its end returns. And a read under another slot throws as long
as the file is sealed. -/
theorem secret_files_keep_value (p : Platform) (key : Bytes) (hp : IdealAead p key) (slot : SecretSlot)
    (d : Disk StateFile Bytes) (value : Option JsString) (hfile : Holds p key slot (d slot.file) value)
    (events : List SecretEvent) :
    (∀ pre e post, events = pre ++ e :: post → e.call = .read →
      (∀ r, e.result p key slot (run (secretStep p key slot) ⟨d, value⟩ pre).disk = some r →
        r = (run (secretStep p key slot) ⟨d, value⟩ pre).value ∧
        (r = none → ∀ earlier, earlier <+: pre →
          (run (secretStep p key slot) ⟨d, value⟩ earlier).disk slot.file = none) ∧
        ∀ plaintext, r = some plaintext → ∃ b envelope,
          (run (secretStep p key slot) ⟨d, value⟩ (pre ++ [e])).disk slot.file = some b ∧
          fileEnvelope b = some envelope ∧ openSecret p key slot.name envelope = some plaintext) ∧
      ((∀ o, e.deny o = none) → 5 ≤ e.steps →
        e.result p key slot (run (secretStep p key slot) ⟨d, value⟩ pre).disk =
          some (run (secretStep p key slot) ⟨d, value⟩ pre).value)) ∧
    ∀ (other : SecretSlot) (plaintext : JsString), other.file = slot.file → WellFormed slot.name →
      WellFormed other.name → other.name ≠ slot.name →
      Sealed p key slot plaintext ((run (secretStep p key slot) ⟨d, value⟩ events).disk slot.file) →
      ∀ (c : SecretDraws) (deny : NodeOp → Option JsString) (n : ℕ),
        ∃ err, machine.alone [] deny (n + 1)
            (readSecretFile p key c other, (run (secretStep p key slot) ⟨d, value⟩ events).disk) =
          (.thrown err, (run (secretStep p key slot) ⟨d, value⟩ events).disk) := by
  constructor
  · intro pre e post _ hread
    have hpre := holds_run hp hfile pre
    refine ⟨?_, read_returns hp hpre hread⟩
    intro r hres
    obtain ⟨hr, hsealed⟩ := read_result hp hpre hread hres
    refine ⟨hr, ?_, ?_⟩
    · rintro rfl earlier hearlier
      exact never_existed hp hfile hearlier hr.symm
    · intro plaintext hplaintext
      have h := hsealed plaintext hplaintext
      obtain ⟨b, hb⟩ := h.content
      rw [hb] at h
      obtain ⟨envelope, henvelope, hopen⟩ := h.envelope hp
      refine ⟨b, envelope, ?_, henvelope, hopen⟩
      rw [run_concat]
      exact hb
  · intro other plaintext hother hname hname' hne hsealed c deny n
    exact readSecretFile_other hp c hother hname hname' hne hsealed deny n

namespace Sample

/-! ### An ideal cipher -/

/-- The text with the associated data before it, each byte marked and the end as well. -/
def wrap : Bytes → Bytes → Bytes
  | [], b => 0 :: b
  | x :: aad, b => 1 :: x :: wrap aad b

def unwrap : Bytes → Bytes → Option Bytes
  | [], 0 :: b => some b
  | x :: aad, 1 :: y :: b => if x = y then unwrap aad b else none
  | _, _ => none

theorem unwrap_wrap : ∀ aad b : Bytes, unwrap aad (wrap aad b) = some b
  | [], _ => rfl
  | x :: aad, b => by
    show (if x = x then unwrap aad (wrap aad b) else none) = _
    rw [if_pos rfl, unwrap_wrap aad b]

theorem unwrap_other : ∀ aad' aad b : Bytes, aad' ≠ aad → unwrap aad' (wrap aad b) = none
  | [], [], _, h => absurd rfl h
  | [], _ :: _, _, _ => rfl
  | _ :: _, [], _, _ => rfl
  | x :: aad', y :: aad, b, h => by
    show (if x = y then unwrap aad' (wrap aad b) else none) = none
    split_ifs with hxy
    · exact unwrap_other aad' aad b fun haad => h (by rw [hxy, haad])
    · rfl

def sealing : Platform where
  __ := ({} : Tables).platform
  encrypt _ _ aad b := wrap aad b
  decrypt _ _ aad b := unwrap aad b

theorem ideal_sealing (key : Bytes) : IdealAead sealing key where
  opens _ aad b _ := unwrap_wrap aad b
  bound _ aad aad' b _ h := unwrap_other aad' aad b h

/-! ### A legacy file -/

theorem privateKeyPem_ne_tmp (n : ℕ) : StateFile.privateKeyPem ≠ .tmp n := by
  intro h
  cases h

def nodeKeySlot : SecretSlot where
  name := SLOT_NODE_KEY
  path := js "/state/keys/node.key"
  dir := .keysDir
  file := .privateKeyPem
  notTmp := privateKeyPem_ne_tmp

def legacyDisk : Disk StateFile Bytes := fun f => if f = .privateKeyPem then some (utf8 (js "PEM")) else none

def legacyRead : SecretEvent where
  call := .read
  draws := ⟨List.replicate 12 0, 0, rfl⟩
  deny := allowed
  steps := 5

/-- A legacy file is read. -/
theorem legacyRead_result :
    legacyRead.result sealing (List.replicate 32 0) nodeKeySlot legacyDisk = some (some (js "PEM")) := by
  have hlegacy : fileEnvelope (utf8 (js "PEM")) = none := by decide
  have htext : decodeUtf8 (utf8 (js "PEM")) = js "PEM" := by decide
  have hholds : Holds sealing (List.replicate 32 0) nodeKeySlot (legacyDisk nodeKeySlot.file)
      (some (js "PEM")) := by
    have h : Holds sealing (List.replicate 32 0) nodeKeySlot (some (utf8 (js "PEM")))
        (some (decodeUtf8 (utf8 (js "PEM")))) := .legacy hlegacy
    rwa [htext] at h
  exact ((secret_files_keep_value sealing (List.replicate 32 0) (ideal_sealing _) nodeKeySlot legacyDisk _ hholds
    [legacyRead]).1 [] legacyRead [] rfl rfl).2 (fun _ => rfl) le_rfl

end Sample

end ConsensusNode.Node
