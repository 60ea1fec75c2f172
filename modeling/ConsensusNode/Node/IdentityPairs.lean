import ConsensusNode.Lib.Run
import ConsensusNode.Node.Identity

/-! # Identities of several processes

Any number of processes call `loadOrCreateIdentity` on one state directory that is empty at first. They
share the data key, their steps interleave, and each may stop at any time. The private and the public key
are two files, and a process that finds the first without the second generates a new pair.

* `identities_match`: if a new private key is only ever moved to `node.key` while there is none, and
  `node.pub` is not read between its truncation and its write, every identity that is returned is a
  matching pair. -/

namespace ConsensusNode.Node

open Js Lib Lib.Run

variable (p : Platform) (draws : ℕ → Draws)

abbrev IdentityWorld := World StateFile Bytes ℕ IdentityCall

inductive IdentityEvent where
  | step (i : ℕ)
  | crash (i : ℕ)

/-- A process makes a step, or stops for good. -/
def identityStep (w : IdentityWorld) : IdentityEvent → IdentityWorld
  | .step i => w.step (identityMachine p (draws i)) [] (fun _ => none) i
  | .crash i =>
    match w.procs i with
    | .returned _ _ => w
    | _ => w.setProc i (.thrown false)

/-- No file, and no process has made a step. -/
def identityStart : IdentityWorld := ⟨fun _ => none, fun _ => .ensureBase⟩

/-- The step does not replace a private key by a new one, and does not read a truncated public key. -/
def orderly (w : IdentityWorld) : IdentityEvent → Bool
  | .step i =>
    match w.procs i with
    | .store .created .rename => (w.disk .privateKeyPem).isNone
    | .readPub _ => decide (w.disk .publicKeyPem ≠ some [])
    | _ => true
  | .crash _ => true

/-- What `generateKeyPairSync` returns: PEM texts of a private key and of its public key. -/
structure Generated (publicOf : JsString → JsString) (pair : NodeIdentity) : Prop where
  matching : pair.publicKeyPem = publicOf pair.privateKeyPem
  ne : pair.privateKeyPem ≠ []
  wellFormed : WellFormed pair.privateKeyPem ∧ WellFormed pair.publicKeyPem

/-- The processes: they share the data key, have temporary files of their own and draw key pairs. -/
structure Processes (publicOf : JsString → JsString) (key : Bytes) : Prop where
  opens : SealsOpen p
  length_key : key.length = DEK_BYTES
  shared : ∀ i, (draws i).dataKey = some key
  nonces : ∀ i k, ((draws i).nonce k).length = NONCE_BYTES
  named : ∀ i, (draws i).process = i
  generated : ∀ i, Generated publicOf (draws i).keyPair

/-- The content of `node.key` after process `j` has stored its key. -/
def keyFile (j : ℕ) : Bytes := IdentityCall.sealedFile p (draws j) .created

/-- The content of `node.pub` after process `j` has stored its key. -/
def pubFile (j : ℕ) : Bytes := utf8 (draws j).keyPair.publicKeyPem

/-- The files: a private key of one of the processes, and no public key, an empty one or the one of the
same process. -/
structure FilesOk (d : Disk StateFile Bytes) : Prop where
  key : d .privateKeyPem = none ∨ ∃ j, d .privateKeyPem = some (keyFile p draws j)
  pub : d .publicKeyPem = none ∨ d .publicKeyPem = some [] ∨
    ∃ j, d .privateKeyPem = some (keyFile p draws j) ∧ d .publicKeyPem = some (pubFile draws j)

/-- What a process knows about the files. -/
def CallOk (publicOf : JsString → JsString) (d : Disk StateFile Bytes) (i : ℕ) : IdentityCall → Prop
  | .store (.legacy _) _ => False
  | .store .created .rename => d (.tmp i) = some (keyFile p draws i)
  | .readPub text =>
    ∃ j, d .privateKeyPem = some (keyFile p draws j) ∧ text = (draws j).keyPair.privateKeyPem
  | .truncatePub => d .privateKeyPem = some (keyFile p draws i)
  | .writePub => d .privateKeyPem = some (keyFile p draws i)
  | .returned identity _ => identity.publicKeyPem = publicOf identity.privateKeyPem
  | _ => True

/-- The invariant. -/
structure PairsInv (publicOf : JsString → JsString) (w : IdentityWorld) : Prop where
  files : FilesOk p draws w.disk
  calls : ∀ i, CallOk p draws publicOf w.disk i (w.procs i)

variable {p draws} {publicOf : JsString → JsString} {w : IdentityWorld} {d d' : Disk StateFile Bytes}
  {i : ℕ}

theorem CallOk.congr {s : IdentityCall} (hkey : d' .privateKeyPem = d .privateKeyPem)
    (htmp : d' (.tmp i) = d (.tmp i)) (h : CallOk p draws publicOf d i s) :
    CallOk p draws publicOf d' i s := by
  rcases s with _ | _ | _ | _ | _ | ⟨_ | _, _ | _ | _ | _⟩ | _ | _ | _ | _ | _ <;>
    simp only [CallOk, hkey, htmp] at h ⊢ <;> exact h

theorem callOk_startStore :
    CallOk p draws publicOf d i (IdentityCall.startStore (draws i) .created) := by
  unfold IdentityCall.startStore
  split_ifs
  · trivial
  · trivial

/-- A step that changes no file. -/
theorem PairsInv.setProc (h : PairsInv p draws publicOf w) {s : IdentityCall}
    (hcall : CallOk p draws publicOf w.disk i s) : PairsInv p draws publicOf (w.setProc i s) := by
  refine ⟨h.files, fun j => ?_⟩
  by_cases hji : j = i
  · subst hji
    simpa [World.setProc] using hcall
  · simpa [World.setProc, hji] using h.calls j

/-- A step that leaves the private key and the temporary files of the others. -/
theorem PairsInv.update (h : PairsInv p draws publicOf w) {s : IdentityCall}
    (hkey : d' .privateKeyPem = w.disk .privateKeyPem)
    (htmp : ∀ j, j ≠ i → d' (.tmp j) = w.disk (.tmp j)) (hfiles : FilesOk p draws d')
    (hcall : CallOk p draws publicOf d' i s) :
    PairsInv p draws publicOf ⟨d', Function.update w.procs i s⟩ := by
  refine ⟨hfiles, fun j => ?_⟩
  by_cases hji : j = i
  · subst hji
    simpa using hcall
  · have := (h.calls j).congr hkey (htmp j hji)
    simpa [hji] using this

/-- The first private key is moved to its place: nobody has one yet. -/
theorem PairsInv.rename (h : PairsInv p draws publicOf w) (hnone : w.disk .privateKeyPem = none)
    (hkey : d' .privateKeyPem = some (keyFile p draws i)) (hpub : d' .publicKeyPem = w.disk .publicKeyPem)
    (htmp : ∀ j, j ≠ i → d' (.tmp j) = w.disk (.tmp j)) :
    PairsInv p draws publicOf ⟨d', Function.update w.procs i .truncatePub⟩ := by
  refine ⟨⟨.inr ⟨i, hkey⟩, ?_⟩, fun j => ?_⟩
  · show d' .publicKeyPem = none ∨ d' .publicKeyPem = some [] ∨ _
    rw [hpub]
    rcases h.files.pub with hp | hp | ⟨k, hk, -⟩
    · exact .inl hp
    · exact .inr (.inl hp)
    · rw [hnone] at hk
      cases hk
  · by_cases hji : j = i
    · subst hji
      simpa [CallOk] using hkey
    · have hj := h.calls j
      simp only [Function.update_of_ne hji]
      rcases hpc : w.procs j with _ | _ | _ | _ | _ | ⟨_ | _, _ | _ | _ | _⟩ | _ | _ | _ | _ | _ <;>
        rw [hpc] at hj <;> simp only [CallOk, hnone, htmp j hji] at hj ⊢ <;> first | exact hj | simp at hj

theorem identityStep_of_next {o : NodeOp} (hn : (w.procs i).next p (draws i) = some o) :
    identityStep p draws w (.step i) =
      ⟨(exec (ε := JsString) [] (fun _ => none) w.disk o).2, Function.update w.procs i
        ((w.procs i).resume p (draws i) (exec [] (fun _ => none) w.disk o).1)⟩ :=
  World.step_of_next hn

theorem identityStep_of_looks {o : NodeOp} (hn : (w.procs i).next p (draws i) = some o)
    (ho : o.Looks) : identityStep p draws w (.step i) =
      w.setProc i ((w.procs i).resume p (draws i) (exec [] (fun _ => none) w.disk o).1) :=
  World.step_of_looks hn ho

section Setting

variable {key : Bytes} (hs : Processes p draws publicOf key)

include hs

theorem secretText_keyFile (j : ℕ) : secretText p (some key) SLOT_NODE_KEY (keyFile p draws j) =
    some (draws j).keyPair.privateKeyPem := by
  unfold keyFile IdentityCall.sealedFile
  rw [hs.shared j]
  exact secretText_seal hs.opens hs.length_key (hs.nonces j _) SLOT_NODE_KEY
    (hs.generated j).wellFormed.1

/-- The private keys of equal files are equal. -/
theorem privateKey_of_keyFile {j k : ℕ} (h : keyFile p draws j = keyFile p draws k) :
    (draws j).keyPair.privateKeyPem = (draws k).keyPair.privateKeyPem := by
  have hj := secretText_keyFile hs j
  rw [h, secretText_keyFile hs k] at hj
  exact (Option.some.inj hj).symm

/-- Whoever opens the file of `j` goes on with the private key of `j`. -/
theorem openKey_keyFile (i j : ℕ) : IdentityCall.openKey p (draws i) (keyFile p draws j) =
    .readPub (draws j).keyPair.privateKeyPem := by
  have htext := secretText_keyFile hs j
  obtain ⟨envelope, henv⟩ : ∃ e, fileEnvelope (keyFile p draws j) = some e :=
    ⟨_, fileEnvelope_seal _ _ _ _⟩
  unfold secretText at htext
  rw [henv] at htext
  simp only at htext
  unfold IdentityCall.openKey IdentityCall.useKey
  rw [henv, hs.shared i]
  simp only [htext, if_neg (hs.generated j).ne]

/-- **One step keeps the invariant.** -/
theorem PairsInv.step (h : PairsInv p draws publicOf w) (i : ℕ)
    (ho : orderly w (.step i) = true) : PairsInv p draws publicOf (identityStep p draws w (.step i)) := by
  have hcall := h.calls i
  simp only [orderly] at ho
  rcases hpc : w.procs i with _ | _ | _ | _ | _ | ⟨_ | _, _ | _ | _ | _⟩ | text | _ | _ | _ | _
  · rw [identityStep_of_looks (o := .mkdir .base) (by rw [hpc]; rfl) trivial, hpc]
    exact h.setProc trivial
  · rw [identityStep_of_looks (o := .mkdir .keysDir) (by rw [hpc]; rfl) trivial, hpc]
    exact h.setProc trivial
  · rw [identityStep_of_looks (o := .access .privateKeyPem) (by rw [hpc]; rfl) trivial, hpc]
    refine h.setProc ?_
    generalize (exec [] (fun _ => none) w.disk (.access .privateKeyPem)).1 = a
    rcases a with _ | _ | _ | _ <;> first | trivial | exact callOk_startStore
  · rw [identityStep_of_looks (o := .access .publicKeyPem) (by rw [hpc]; rfl) trivial, hpc]
    refine h.setProc ?_
    generalize (exec [] (fun _ => none) w.disk (.access .publicKeyPem)).1 = a
    rcases a with _ | _ | _ | _ <;> first | trivial | exact callOk_startStore
  · -- the private key is opened
    rw [identityStep_of_looks (o := .read .privateKeyPem) (by rw [hpc]; rfl) trivial, hpc]
    refine h.setProc ?_
    rcases h.files.key with hk | ⟨j, hk⟩
    · simp only [exec, hk]
      exact callOk_startStore
    · simp only [exec, hk, IdentityCall.resume]
      rw [openKey_keyFile hs i j]
      exact ⟨j, hk, rfl⟩
  all_goals rw [hpc] at hcall ho
  · exact hcall.elim
  · exact hcall.elim
  · exact hcall.elim
  · exact hcall.elim
  · rw [identityStep_of_looks (o := .mkdir .keysDir) (by rw [hpc]; rfl) trivial, hpc]
    exact h.setProc trivial
  · rw [identityStep_of_next (o := .truncate (.tmp i)) (by rw [hpc]; simp [IdentityCall.next, hs.named i]),
      hpc]
    refine h.update ?_ ?_ ?_ trivial
    · simp [exec]
    · intro j hji
      simp [exec, hji]
    · exact ⟨by simpa [exec] using h.files.key, by simpa [exec] using h.files.pub⟩
  · rw [identityStep_of_next (o := .write (.tmp i) (keyFile p draws i))
      (by rw [hpc]; simp [IdentityCall.next, hs.named i, keyFile]), hpc]
    refine h.update ?_ ?_ ?_ ?_
    · simp [exec]
    · intro j hji
      simp [exec, hji]
    · exact ⟨by simpa [exec] using h.files.key, by simpa [exec] using h.files.pub⟩
    · simp [exec, IdentityCall.resume, CallOk]
  · -- the new private key is moved to its place
    have hnone : w.disk .privateKeyPem = none := by simpa using ho
    have htmp : w.disk (.tmp i) = some (keyFile p draws i) := hcall
    rw [identityStep_of_next (o := .rename (.tmp i) .privateKeyPem)
      (by rw [hpc]; simp [IdentityCall.next, hs.named i]), hpc]
    simp only [exec, htmp]
    refine h.rename hnone ?_ ?_ ?_
    · simp
    · simp
    · intro j hji
      simp [hji]
  · -- the public key is read
    obtain ⟨j, hj, rfl⟩ := hcall
    have hne : w.disk .publicKeyPem ≠ some [] := by simpa using ho
    rw [identityStep_of_looks (o := .read .publicKeyPem) (by rw [hpc]; rfl) trivial, hpc]
    refine h.setProc ?_
    rcases h.files.pub with hp | hp | ⟨k, hk, hp⟩
    · simp only [exec, hp]
      trivial
    · exact absurd hp hne
    · simp only [exec, hp, IdentityCall.resume, CallOk, pubFile]
      have hsame := privateKey_of_keyFile hs (Option.some.inj (hj.symm.trans hk))
      rw [decodeUtf8_utf8 (hs.generated k).wellFormed.2, (hs.generated k).matching, hsame]
  · rw [identityStep_of_next (o := .truncate .publicKeyPem) (by rw [hpc]; rfl), hpc]
    have hkey : w.disk .privateKeyPem = some (keyFile p draws i) := hcall
    refine h.update ?_ ?_ ?_ ?_
    · simp [exec]
    · intro j hji
      simp [exec]
    · exact ⟨by simpa [exec] using h.files.key, .inr (.inl (by simp [exec]))⟩
    · simpa [exec, IdentityCall.resume, CallOk] using hkey
  · rw [identityStep_of_next (o := .write .publicKeyPem (pubFile draws i)) (by rw [hpc]; rfl), hpc]
    have hkey : w.disk .privateKeyPem = some (keyFile p draws i) := hcall
    refine h.update ?_ ?_ ?_ ?_
    · simp [exec]
    · intro j hji
      simp [exec]
    · exact ⟨by simpa [exec] using h.files.key, .inr (.inr ⟨i, by simpa [exec] using hkey, by simp [exec]⟩)⟩
    · exact (hs.generated i).matching
  · have hn : (w.procs i).next p (draws i) = none := by rw [hpc]; rfl
    have he : identityStep p draws w (.step i) = w := World.step_of_done hn
    rw [he]
    exact h
  · have hn : (w.procs i).next p (draws i) = none := by rw [hpc]; rfl
    have he : identityStep p draws w (.step i) = w := World.step_of_done hn
    rw [he]
    exact h

end Setting

theorem PairsInv.crash (h : PairsInv p draws publicOf w) (i : ℕ) :
    PairsInv p draws publicOf (identityStep p draws w (.crash i)) := by
  unfold identityStep
  simp only
  split
  · exact h
  · exact h.setProc trivial

theorem pairsInv_start : PairsInv p draws publicOf identityStart :=
  ⟨⟨.inl rfl, .inl rfl⟩, fun _ => trivial⟩

/-- **Matching pairs.** Any number of processes start on an empty state directory with a shared data key;
their steps interleave in any order and each may stop at any point. If no step moves a new private key
over an existing one or reads a truncated public key, every identity ever returned is a matching pair. -/
theorem identities_match (p : Platform) (draws : ℕ → Draws) (publicOf : JsString → JsString) (key : Bytes)
    (hs : Processes p draws publicOf key) (es : List IdentityEvent)
    (ho : Steps (identityStep p draws) (fun _ w e => orderly w e = true) identityStart es) :
    ∀ i identity created,
      (run (identityStep p draws) identityStart es).procs i = .returned identity created →
      identity.publicKeyPem = publicOf identity.privateKeyPem := by
  have hinv := run_induct (J := fun _ w => PairsInv p draws publicOf w) pairsInv_start
    (fun pre e h hc => by
      rcases e with i | i
      · exact h.step hs i hc
      · exact h.crash i) ho
  intro i identity created hret
  have hcall := hinv.calls i
  rw [hret] at hcall
  exact hcall

namespace Sample

/-- The first process would create the first key pair, every other one the second. -/
def pairDraws (i : ℕ) : Draws where
  keyPair := if i = 0 then registered else generated
  nonce := fun _ => envelopeNonce
  dataKey := some dek
  process := i

def pemPublic (privateKeyPem : JsString) : JsString :=
  if privateKeyPem = registered.privateKeyPem then registered.publicKeyPem else generated.publicKeyPem

/-- No surrogates. -/
def isPlain (s : JsString) : Bool := s.all fun c => decide (c.toNat < 0xD800)

theorem wellFormed_of_isPlain {s : JsString} (h : isPlain s = true) : WellFormed s := by
  refine wellFormed_of_plain fun c hc => ?_
  have := List.all_eq_true.mp h c hc
  simpa [Plain] using this

theorem generated_of_plain {pair : NodeIdentity}
    (h : pair.publicKeyPem = pemPublic pair.privateKeyPem ∧ pair.privateKeyPem ≠ [] ∧
      isPlain pair.privateKeyPem = true ∧ isPlain pair.publicKeyPem = true) : Generated pemPublic pair :=
  ⟨h.1, h.2.1, wellFormed_of_isPlain h.2.2.1, wellFormed_of_isPlain h.2.2.2⟩

theorem processes_pairDraws : Processes cipher pairDraws pemPublic dek where
  opens := sealsOpen_cipher
  length_key := by simp [dek, DEK_BYTES]
  shared := fun _ => rfl
  nonces := fun _ _ => by simp [pairDraws, envelopeNonce, NONCE_BYTES]
  named := fun _ => rfl
  generated := by
    have h1 : Generated pemPublic registered := generated_of_plain (by decide +kernel)
    have h2 : Generated pemPublic generated := generated_of_plain (by decide +kernel)
    intro i
    unfold pairDraws
    simp only
    split_ifs
    · exact h1
    · exact h2

/-- The first process creates the identity, and the second finds it. -/
def firstThenSecond : List IdentityEvent :=
  List.replicate 9 (.step 0) ++ List.replicate 6 (.step 1)

theorem firstThenSecond_matches :
    (run (identityStep cipher pairDraws) identityStart firstThenSecond).procs 0 =
      .returned ⟨registered.privateKeyPem, registered.publicKeyPem⟩ true ∧
    (run (identityStep cipher pairDraws) identityStart firstThenSecond).procs 1 =
      .returned ⟨registered.privateKeyPem, registered.publicKeyPem⟩ false ∧
    registered.publicKeyPem = pemPublic registered.privateKeyPem := by
  have horderly : Steps (identityStep cipher pairDraws) (fun _ w e => orderly w e = true) identityStart
      firstThenSecond := by decide +kernel
  have hsecond : (run (identityStep cipher pairDraws) identityStart firstThenSecond).procs 1 =
      .returned ⟨registered.privateKeyPem, registered.publicKeyPem⟩ false := by decide +kernel
  have hmatch := identities_match cipher pairDraws pemPublic dek processes_pairDraws firstThenSecond horderly 1
    ⟨registered.privateKeyPem, registered.publicKeyPem⟩ false hsecond
  dsimp only at hmatch
  exact ⟨by decide +kernel, hsecond, hmatch⟩

/-- The second process starts while the first has stored only its private key. -/
def overlapping : List IdentityEvent :=
  List.replicate 7 (.step 0) ++ List.replicate 8 (.step 1) ++ List.replicate 2 (.step 0) ++
    List.replicate 6 (.step 2)

/-- A third process then returns the private key of the second with the public key of the first. -/
theorem overlapping_mixed :
    (run (identityStep cipher pairDraws) identityStart overlapping).procs 2 =
      .returned ⟨generated.privateKeyPem, registered.publicKeyPem⟩ false ∧
    registered.publicKeyPem ≠ pemPublic generated.privateKeyPem := by
  decide +kernel

end Sample

end ConsensusNode.Node
