import ConsensusNode.Lib.Run
import ConsensusNode.Node.SecretStore

/-! # Two processes that create the data key

`getOrCreateDataKey` reads the key file, and if there is none it writes one and reads it back. With two
processes that start without a key file the steps interleave. A key that one of them has returned stays in
the file exactly if the other does not write after that (`returned_stored_iff`): the read-back only
catches a write that comes before it. -/

namespace ConsensusNode.Node

open Js Lib Lib.Run

/-! ### The text of a key -/

/-- The content of a key file. -/
def keyText (key : Bytes) : Bytes := utf8 (base64 key)

theorem base64_char {bs : Bytes} {c : UInt16} (h : c ∈ base64 bs) :
    (∃ n < 64, c = b64Char false n) ∨ c = unit '=' := by
  unfold base64 at h
  rcases List.mem_append.mp h with h | h
  · obtain ⟨n, hn, rfl⟩ := List.mem_map.mp h
    exact .inl ⟨n, sextets_lt bs n hn, rfl⟩
  · exact .inr (List.eq_of_mem_replicate h)

theorem plain_base64 {bs : Bytes} {c : UInt16} (h : c ∈ base64 bs) : Plain c ∧ isSpace c = false := by
  have hall : ∀ n < 64, (b64Char false n).toNat < 0xD800 ∧ isSpace (b64Char false n) = false := by
    decide
  rcases base64_char h with ⟨n, hn, rfl⟩ | rfl
  · exact hall n hn
  · decide

theorem decodeDataKey_keyText {key : Bytes} (h : key.length = DEK_BYTES) :
    decodeDataKey (decodeUtf8 (keyText key)) = some key := by
  have hwf : WellFormed (base64 key) := wellFormed_of_plain fun c hc => (plain_base64 hc).1
  unfold keyText decodeDataKey
  rw [decodeUtf8_utf8 hwf, trim_of_not_space fun c hc => (plain_base64 hc).2, decodeBase64_base64]
  simp [h]

theorem keyText_inj {k l : Bytes} (hk : k.length = DEK_BYTES) (hl : l.length = DEK_BYTES)
    (h : keyText k = keyText l) : k = l := by
  have := decodeDataKey_keyText hk
  rw [h, decodeDataKey_keyText hl] at this
  exact (Option.some.inj this).symm

/-! ### The two processes -/

abbrev KeyWorld := World StateFile Bytes Bool KeyCall

/-- One of the processes makes a step; no operation is refused. -/
def keyStep (w : KeyWorld) (i : Bool) : KeyWorld := w.step keyMachine [] (fun _ => none) i

/-- Both processes at the start, with the keys they would create. -/
def keyStart (d : Disk StateFile Bytes) (fresh : Bool → Bytes) : KeyWorld :=
  ⟨d, fun i => getOrCreateDataKey none true (fresh i)⟩

namespace KeyCall

/-- The next step writes the key file. -/
def writes : KeyCall → Bool
  | .set _ => true
  | _ => false

/-- The call has returned a key. -/
def hasReturned : KeyCall → Bool
  | .returned _ => true
  | _ => false

/-- The call has written, or will not. -/
def written : KeyCall → Bool
  | .get _ => false
  | .set _ => false
  | _ => true

end KeyCall

variable {fresh : Bool → Bytes} {w : KeyWorld} {i : Bool}

/-- What holds in every state: a call knows its own key, and whatever is in the file or was returned is
the key of a process that is past its write. -/
structure KeyInv (fresh : Bool → Bytes) (w : KeyWorld) : Prop where
  own : ∀ i, w.procs i = .get (fresh i) ∨ w.procs i = .set (fresh i) ∨
    w.procs i = .readBack (fresh i) ∨ (∃ k, w.procs i = .returned k) ∨ w.procs i = .thrown
  file : (w.disk .dataKey = none ∧ ∀ i, (w.procs i).written = false) ∨
    ∃ j, w.disk .dataKey = some (keyText (fresh j)) ∧ (w.procs j).written = true
  returned : ∀ i k, w.procs i = .returned k → ∃ j, k = fresh j ∧ (w.procs j).written = true

theorem keyInv_start {d : Disk StateFile Bytes} (hd : d .dataKey = none) :
    KeyInv fresh (keyStart d fresh) := by
  refine ⟨fun i => .inl rfl, .inl ⟨hd, fun i => rfl⟩, ?_⟩
  intro i k h
  cases h

section Step

variable (hlen : ∀ i, (fresh i).length = DEK_BYTES)

include hlen

/-- What one step does. -/
theorem keyStep_cases (h : KeyInv fresh w) :
    (keyStep w i = w ∧ (w.procs i).written = true) ∨
    (w.procs i = .get (fresh i) ∧ w.disk .dataKey = none ∧
      keyStep w i = w.setProc i (.set (fresh i))) ∨
    (∃ j, (w.procs i = .get (fresh i) ∨ w.procs i = .readBack (fresh i)) ∧
      w.disk .dataKey = some (keyText (fresh j)) ∧ (w.procs j).written = true ∧
      keyStep w i = w.setProc i (.returned (fresh j))) ∨
    (w.procs i = .set (fresh i) ∧ keyStep w i =
      { disk := Function.update w.disk .dataKey (some (keyText (fresh i)))
        procs := Function.update w.procs i (.readBack (fresh i)) }) ∨
    (w.procs i = .readBack (fresh i) ∧ keyStep w i = w.setProc i .thrown) := by
  have hread : ∀ j, w.disk .dataKey = some (keyText (fresh j)) →
      exec (ε := JsString) [] (fun _ => none) w.disk (.read .dataKey) =
        (.data (keyText (fresh j)), w.disk) := by
    intro j hj
    simp [exec, hj]
  have hgot : ∀ j, KeyCall.gotKey (.data (keyText (fresh j))) = .ok (some (fresh j)) := by
    intro j
    simp [KeyCall.gotKey, decodeDataKey_keyText (hlen j)]
  have hstep : ∀ o, (w.procs i).next = some o → keyStep w i =
      { disk := (exec (ε := JsString) [] (fun _ => none) w.disk o).2
        procs := Function.update w.procs i
          ((w.procs i).resume (exec [] (fun _ => none) w.disk o).1) } := by
    intro o ho
    exact World.step_of_next ho
  rcases h.own i with hi | hi | hi | ⟨k, hi⟩ | hi
  · rcases h.file with ⟨hnone, -⟩ | ⟨j, hj, hw⟩
    · refine .inr (.inl ⟨hi, hnone, ?_⟩)
      rw [hstep (.read .dataKey) (by rw [hi]; rfl), hi]
      simp [exec, hnone, World.setProc, KeyCall.resume, KeyCall.gotKey]
    · refine .inr (.inr (.inl ⟨j, .inl hi, hj, hw, ?_⟩))
      rw [hstep (.read .dataKey) (by rw [hi]; rfl), hread j hj, hi]
      simp [World.setProc, KeyCall.resume, hgot]
  · refine .inr (.inr (.inr (.inl ⟨hi, ?_⟩)))
    rw [hstep (.write .dataKey (keyText (fresh i))) (by rw [hi]; rfl), hi]
    simp [exec, KeyCall.resume]
  · rcases h.file with ⟨-, hun⟩ | ⟨j, hj, hw⟩
    · have := hun i
      rw [hi] at this
      cases this
    · by_cases hji : fresh j = fresh i
      · refine .inr (.inr (.inl ⟨j, .inr hi, hj, hw, ?_⟩))
        rw [hstep (.read .dataKey) (by rw [hi]; rfl), hread j hj, hi]
        simp [World.setProc, KeyCall.resume, hgot, hji]
      · refine .inr (.inr (.inr (.inr ⟨hi, ?_⟩)))
        rw [hstep (.read .dataKey) (by rw [hi]; rfl), hread j hj, hi]
        simp [World.setProc, KeyCall.resume, hgot, hji]
  · have hn : (w.procs i).next = none := by rw [hi]; rfl
    exact .inl ⟨World.step_of_done hn, by rw [hi]; rfl⟩
  · have hn : (w.procs i).next = none := by rw [hi]; rfl
    exact .inl ⟨World.step_of_done hn, by rw [hi]; rfl⟩

omit hlen in
/-- A step in which nothing is written and the process does not go back before its write. -/
theorem KeyInv.setProc (h : KeyInv fresh w) {c : KeyCall}
    (hown : c = .set (fresh i) ∨ (∃ j, c = .returned (fresh j) ∧ (w.procs j).written = true) ∨
      c = .thrown)
    (hw : c.written = (w.procs i).written ∨ (c.written = true ∧ ∃ j, (w.procs j).written = true)) :
    KeyInv fresh (w.setProc i c) := by
  have hkeep : ∀ j, (w.procs j).written = true → ((w.setProc i c).procs j).written = true := by
    intro j hj
    by_cases hji : j = i
    · subst hji
      rcases hw with hw | ⟨hw, -⟩
      · simp [World.setProc, hw, hj]
      · simp [World.setProc, hw]
    · simpa [World.setProc, hji] using hj
  refine ⟨?_, ?_, ?_⟩
  · intro j
    by_cases hji : j = i
    · subst hji
      rcases hown with rfl | ⟨l, rfl, -⟩ | rfl <;> simp [World.setProc]
    · simpa [World.setProc, hji] using h.own j
  · rcases h.file with ⟨hnone, hun⟩ | ⟨j, hj, hwj⟩
    · left
      refine ⟨hnone, fun j => ?_⟩
      by_cases hji : j = i
      · subst hji
        rcases hw with hw | ⟨-, l, hl⟩
        · simp [World.setProc, hw, hun]
        · rw [hun l] at hl
          cases hl
      · simpa [World.setProc, hji] using hun j
    · exact .inr ⟨j, hj, hkeep j hwj⟩
  · intro j k hjk
    by_cases hji : j = i
    · subst hji
      simp only [World.setProc, Function.update_self] at hjk
      rcases hown with rfl | ⟨l, rfl, hl⟩ | rfl
      · cases hjk
      · cases hjk
        exact ⟨l, rfl, hkeep l hl⟩
      · cases hjk
    · simp only [World.setProc, Function.update_of_ne hji] at hjk
      obtain ⟨l, rfl, hl⟩ := h.returned j k hjk
      exact ⟨l, rfl, hkeep l hl⟩

theorem KeyInv.step (h : KeyInv fresh w) (i : Bool) : KeyInv fresh (keyStep w i) := by
  rcases keyStep_cases hlen (i := i) h with ⟨he, -⟩ | ⟨hi, -, he⟩ | ⟨j, hi, -, hw, he⟩ | ⟨hi, he⟩ | ⟨hi, he⟩
  · rw [he]
    exact h
  · rw [he]
    exact h.setProc (.inl rfl) (.inl (by rw [hi]; rfl))
  · rw [he]
    exact h.setProc (.inr (.inl ⟨j, rfl, hw⟩)) (.inr ⟨rfl, j, hw⟩)
  · rw [he]
    have hkeep : ∀ j, (w.procs j).written = true →
        ((Function.update w.procs i (.readBack (fresh i))) j).written = true := by
      intro j hj
      by_cases hji : j = i
      · subst hji
        simp [KeyCall.written]
      · simpa [hji] using hj
    refine ⟨?_, ?_, ?_⟩
    · intro j
      by_cases hji : j = i
      · subst hji
        simp
      · simpa [hji] using h.own j
    · exact .inr ⟨i, by simp, by simp [KeyCall.written]⟩
    · intro j k hjk
      by_cases hji : j = i
      · subst hji
        simp at hjk
      · simp only [Function.update_of_ne hji] at hjk
        obtain ⟨l, rfl, hl⟩ := h.returned j k hjk
        exact ⟨l, rfl, hkeep l hl⟩
  · rw [he]
    exact h.setProc (.inr (.inr rfl)) (.inl (by rw [hi]; rfl))

theorem keyInv_run {d : Disk StateFile Bytes} (hd : d .dataKey = none) (is : List Bool) :
    KeyInv fresh (run keyStep (keyStart d fresh) is) := by
  have htrue : Steps keyStep (fun _ _ _ => True) (keyStart d fresh) is := fun _ _ _ _ => trivial
  exact run_induct (J := fun _ w => KeyInv fresh w) (keyInv_start hd)
    (fun pre i h _ => h.step hlen i) htrue

/-! ### Returned keys -/

omit hlen

/-- Every key that a call has returned is what the key file holds. -/
def ReturnedStored (w : KeyWorld) : Prop :=
  ∀ i k, w.procs i = .returned k → w.disk .dataKey = some (keyText k)

/-- The step does not write after a call has returned. -/
def NoLateWrite (w : KeyWorld) (i : Bool) : Prop :=
  (w.procs i).writes = true → ∀ j, (w.procs j).hasReturned = false

instance (w : KeyWorld) (i : Bool) : Decidable (NoLateWrite w i) := by
  unfold NoLateWrite
  infer_instance

include hlen

theorem ReturnedStored.step (h : KeyInv fresh w) (hr : ReturnedStored w) (hc : NoLateWrite w i) :
    ReturnedStored (keyStep w i) := by
  have hset : ∀ c, (∀ k, c = .returned k → w.disk .dataKey = some (keyText k)) →
      ReturnedStored (w.setProc i c) := by
    intro c hcall j k hjk
    by_cases hji : j = i
    · subst hji
      exact hcall k (by simpa [World.setProc] using hjk)
    · exact hr j k (by simpa [World.setProc, hji] using hjk)
  rcases keyStep_cases hlen (i := i) h with ⟨he, -⟩ | ⟨hi, -, he⟩ | ⟨j, hi, hj, -, he⟩ | ⟨hi, he⟩ | ⟨hi, he⟩
  · rw [he]
    exact hr
  · rw [he]
    exact hset _ (fun k hk => by cases hk)
  · rw [he]
    refine hset _ fun k hk => ?_
    cases hk
    exact hj
  · -- the write: no call has returned yet
    rw [he]
    intro j k hjk
    have hnot := hc (by rw [hi]; rfl) j
    by_cases hji : j = i
    · subst hji
      simp at hjk
    · simp only [Function.update_of_ne hji] at hjk
      rw [hjk] at hnot
      cases hnot
  · rw [he]
    exact hset _ (fun k hk => by cases hk)

/-- A late write: the file holds the key of `i`, which does not write again, and the other call has
returned another key. -/
def Late (fresh : Bool → Bytes) (i : Bool) (k : Bytes) (w : KeyWorld) : Prop :=
  w.disk .dataKey = some (keyText (fresh i)) ∧ (w.procs i).written = true ∧
    w.procs (!i) = .returned k

theorem Late.step {k : Bytes} (h : KeyInv fresh w) (hl : Late fresh i k w) (j : Bool) :
    Late fresh i k (keyStep w j) := by
  obtain ⟨hfile, hwritten, hret⟩ := hl
  by_cases hji : j = i
  · subst hji
    have hne : (!j) ≠ j := by simp
    rcases keyStep_cases hlen (i := j) h with ⟨he, -⟩ | ⟨hj, -, -⟩ | ⟨l, -, -, -, he⟩ | ⟨hj, -⟩ | ⟨-, he⟩
    · rw [he]
      exact ⟨hfile, hwritten, hret⟩
    · rw [hj] at hwritten
      cases hwritten
    · rw [he]
      exact ⟨hfile, by simp [World.setProc, KeyCall.written], by simpa [World.setProc, hne] using hret⟩
    · rw [hj] at hwritten
      cases hwritten
    · rw [he]
      exact ⟨hfile, by simp [World.setProc, KeyCall.written], by simpa [World.setProc, hne] using hret⟩
  · have hj : j = !i := Bool.eq_not_of_ne hji
    have hn : (w.procs j).next = none := by
      rw [hj, hret]
      rfl
    have he : keyStep w j = w := World.step_of_done hn
    rw [he]
    exact ⟨hfile, hwritten, hret⟩

theorem late_of_write (hne : fresh true ≠ fresh false) (h : KeyInv fresh w)
    (hc : ¬ NoLateWrite w i) : ∃ k, k ≠ fresh i ∧ k.length = DEK_BYTES ∧ Late fresh i k (keyStep w i) := by
  have hfresh : fresh (!i) ≠ fresh i := by
    cases i
    · exact hne
    · exact hne.symm
  unfold NoLateWrite at hc
  push Not at hc
  obtain ⟨hwrites, j, hj⟩ := hc
  have hi : w.procs i = .set (fresh i) := by
    rcases h.own i with hi | hi | hi | ⟨k, hi⟩ | hi <;> rw [hi] at hwrites <;>
      first | exact hi | cases hwrites
  obtain ⟨k, hk⟩ : ∃ k, w.procs j = .returned k := by
    rcases hp : w.procs j with k | k | k | k | _ <;> rw [hp] at hj <;>
      first | exact ⟨_, rfl⟩ | exact absurd rfl hj
  have hji : j = !i := by
    refine Bool.eq_not_of_ne ?_
    rintro rfl
    rw [hi] at hk
    cases hk
  obtain ⟨l, rfl, hl⟩ := h.returned j k hk
  have hli : l = !i := by
    refine Bool.eq_not_of_ne ?_
    rintro rfl
    rw [hi] at hl
    cases hl
  rcases keyStep_cases hlen (i := i) h with ⟨-, hw⟩ | ⟨hg, -, -⟩ | ⟨-, hg, -, -, -⟩ | ⟨-, he⟩ | ⟨hg, -⟩
  · rw [hi] at hw
    cases hw
  · rw [hi] at hg
    cases hg
  · rw [hi] at hg
    rcases hg with hg | hg <;> cases hg
  · refine ⟨fresh l, by rw [hli]; exact hfresh, hlen l, ?_⟩
    rw [he]
    refine ⟨by simp, by simp [KeyCall.written], ?_⟩
    have hni : (!i) ≠ i := by simp
    show Function.update w.procs i (.readBack (fresh i)) (!i) = _
    rw [Function.update_of_ne hni, ← hji]
    exact hk
  · rw [hi] at hg
    cases hg

end Step

/-- **The data key of two processes.** In every interleaving of two first starts without a key file, the
keys that have been returned are what the key file holds if and only if neither process writes the file
after the other has returned its key. -/
theorem returned_stored_iff (d : Disk StateFile Bytes) (fresh : Bool → Bytes) (hd : d .dataKey = none)
    (hlen : ∀ i, (fresh i).length = DEK_BYTES) (hne : fresh true ≠ fresh false) (is : List Bool) :
    ReturnedStored (run keyStep (keyStart d fresh) is) ↔
      Steps keyStep (fun _ w i => NoLateWrite w i) (keyStart d fresh) is := by
  constructor
  · intro hr pre i post e
    by_contra hc
    obtain ⟨k, hk, hklen, hlate⟩ := late_of_write hlen hne (keyInv_run hlen hd pre) hc
    have hsplit : run keyStep (keyStart d fresh) is =
        run keyStep (keyStep (run keyStep (keyStart d fresh) pre) i) post := by
      rw [e, run_append, run_cons]
    have hend : Late fresh i k (run keyStep (keyStart d fresh) is) ∧
        KeyInv fresh (run keyStep (keyStart d fresh) is) := by
      rw [hsplit]
      have htrue : Steps keyStep (fun _ _ _ => True)
        (keyStep (run keyStep (keyStart d fresh) pre) i) post := fun _ _ _ _ => trivial
      refine run_induct (J := fun _ w => Late fresh i k w ∧ KeyInv fresh w)
        ⟨hlate, (keyInv_run hlen hd pre).step hlen i⟩ ?_ htrue
      intro pre' j hJ _
      exact ⟨hJ.1.step hlen hJ.2 j, hJ.2.step hlen j⟩
    have hfile := hr _ _ hend.1.2.2
    rw [hend.1.1] at hfile
    exact hk (keyText_inj (hlen i) hklen (Option.some.inj hfile)).symm
  · intro hsteps
    have h0 : ReturnedStored (keyStart d fresh) := by
      intro i k h
      cases h
    refine (run_induct (J := fun _ w => ReturnedStored w ∧ KeyInv fresh w) ⟨h0, keyInv_start hd⟩ ?_
      hsteps).1
    intro pre i hJ hc
    exact ⟨hJ.1.step hlen hJ.2 hc, hJ.2.step hlen i⟩

namespace Sample

/-- The keys the two processes would create. -/
def dataKeys (i : Bool) : Bytes := beBytes 32 (if i then 0x11 else 0x22)

def noFiles : Disk StateFile Bytes := fun _ => none

/-- The second process writes before the first reads back: the first throws. -/
theorem overlapping_start_stored :
    ReturnedStored (run keyStep (keyStart noFiles dataKeys) [true, false, true, false, true, false]) := by
  refine (returned_stored_iff noFiles dataKeys rfl ?_ ?_ _).mpr ?_
  · intro i
    simp [dataKeys, DEK_BYTES]
  · decide
  · decide

/-- Both have finished; the first has returned its key, and the file holds the key of the second. -/
theorem late_write_replaces :
    (run keyStep (keyStart noFiles dataKeys) [true, false, true, true, false, false]).procs true =
      .returned (dataKeys true) ∧
    (run keyStep (keyStart noFiles dataKeys) [true, false, true, true, false, false]).procs false =
      .returned (dataKeys false) ∧
    (run keyStep (keyStart noFiles dataKeys) [true, false, true, true, false, false]).disk .dataKey =
      some (keyText (dataKeys false)) ∧
    keyText (dataKeys false) ≠ keyText (dataKeys true) := by
  decide

end Sample

end ConsensusNode.Node
