import ConsensusNode.Node.Supervise
import ConsensusNode.Release.InstallerSafety

/-! # How the unit ends

What `supervise.ts` promises about the end of the unit, over every order of exits, failures to start, signals
and timers.

* `Signalled`: what sending signals changes; `shutdown_spec`, `killSurvivors_spec`: the signals of a `shutdown`.
* `Inv`: what holds at every moment; `inv_step`, `inv_run`.
* `torn_down`: when the unit exits, every child has ended or has been sent `SIGTERM` and then `SIGKILL`, and the
  exit code is that of the signal or else of the first child to end.
* `unit_exits`: once a child has ended, the unit exits with the end of the grace period at the latest.
* `taken_down`: no signal takes it down without doing so, unless it comes before its handler or twice.
* `unit_finds_release`: beside installers that replace the link, a unit can be started at every moment. -/

namespace ConsensusNode.Node.Supervise

open Lib.Run

/-! ## Sending signals -/

section Signals

variable {reach : Name → Reach} {signal : Signal} {u : Unit} {n m : Name}

/-- The child could be started, and a signal of the kind has been sent to it. -/
def Unit.Sent (u : Unit) (n : Name) (signal : Signal) : Prop := ∃ r, (n, signal, r) ∈ u.sent

/-- `u'` is `u` after some signals `more`: only `killed` marks have changed. -/
structure Signalled (u u' : Unit) (more : List (Name × Signal × Reach)) : Prop where
  sent : u'.sent = u.sent ++ more
  pid : ∀ n, (u'.proc n).pid = (u.proc n).pid
  exitCode : ∀ n, (u'.proc n).exitCode = (u.proc n).exitCode
  signalCode : ∀ n, (u'.proc n).signalCode = (u.proc n).signalCode
  killed : ∀ n, (u.proc n).killed = true → (u'.proc n).killed = true
  main : u'.main = u.main
  first : u'.first = u.first
  signalled : u'.signalled = u.signalled
  handlers : u'.handlers = u.handlers
  signalStop : u'.signalStop = u.signalStop

theorem Signalled.refl (u : Unit) : Signalled u u [] :=
  ⟨by simp, fun _ => rfl, fun _ => rfl, fun _ => rfl, fun _ h => h, rfl, rfl, rfl, rfl, rfl⟩

theorem Signalled.trans {u' u'' : Unit} {a b : List (Name × Signal × Reach)} (h : Signalled u u' a)
    (h' : Signalled u' u'' b) : Signalled u u'' (a ++ b) where
  sent := by rw [h'.sent, h.sent, List.append_assoc]
  pid := fun n => (h'.pid n).trans (h.pid n)
  exitCode := fun n => (h'.exitCode n).trans (h.exitCode n)
  signalCode := fun n => (h'.signalCode n).trans (h.signalCode n)
  killed := fun n hn => h'.killed n (h.killed n hn)
  main := h'.main.trans h.main
  first := h'.first.trans h.first
  signalled := h'.signalled.trans h.signalled
  handlers := h'.handlers.trans h.handlers
  signalStop := h'.signalStop.trans h.signalStop

theorem running_iff : u.running n = true ↔
    (u.proc n).exitCode = none ∧ (u.proc n).signalCode = none ∧ (u.proc n).killed = false := by
  simp [Unit.running, ChildProcess.stillRunning, and_assoc]

/-- A child that runs after the signals did so before. -/
theorem Signalled.running {u' : Unit} {more : List (Name × Signal × Reach)} (h : Signalled u u' more)
    (hn : u'.running n = true) : u.running n = true := by
  obtain ⟨hexit, hsignal, hkilled⟩ := running_iff.mp hn
  refine running_iff.mpr ⟨(h.exitCode n).symm.trans hexit, (h.signalCode n).symm.trans hsignal, ?_⟩
  by_contra hnot
  rw [h.killed n (by simpa using hnot)] at hkilled
  cases hkilled

theorem signalChild_signalled (reach : Name → Reach) (signal : Signal) (u : Unit) (n : Name) :
    Signalled u (signalChild reach signal u n) (if (u.proc n).pid then [(n, signal, reach n)] else []) := by
  unfold signalChild
  split_ifs with hpid
  · cases hreach : reach n with
    | group =>
      dsimp only
      exact ⟨rfl, fun _ => rfl, fun _ => rfl, fun _ => rfl, fun _ h => h, rfl, rfl, rfl, rfl, rfl⟩
    | reaped =>
      dsimp only
      exact ⟨rfl, fun _ => rfl, fun _ => rfl, fun _ => rfl, fun _ h => h, rfl, rfl, rfl, rfl, rfl⟩
    | bare =>
      dsimp only [Unit.setProc]
      refine ⟨rfl, fun m => ?_, fun m => ?_, fun m => ?_, fun m hm => ?_, rfl, rfl, rfl, rfl, rfl⟩
      all_goals
        by_cases hmn : m = n
        · subst hmn
          simp
        · simp [*]
  · exact .refl u

/-- The signals to a list of children. -/
def sends (reach : Name → Reach) (signal : Signal) (u : Unit) (ns : List Name) : List (Name × Signal × Reach) :=
  (ns.filter fun n => (u.proc n).pid).map fun n => (n, signal, reach n)

theorem foldl_signalled (reach : Name → Reach) (signal : Signal) (ns : List Name) (u : Unit) :
    Signalled u (ns.foldl (signalChild reach signal) u) (sends reach signal u ns) := by
  induction ns generalizing u with
  | nil => exact .refl u
  | cons n ns ih =>
    have hone := signalChild_signalled reach signal u n
    have hrest := ih (signalChild reach signal u n)
    have hsends : sends reach signal (signalChild reach signal u n) ns = sends reach signal u ns := by
      unfold sends
      congr 2
      funext m
      rw [hone.pid m]
    have hall : sends reach signal u (n :: ns) =
        (if (u.proc n).pid then [(n, signal, reach n)] else []) ++ sends reach signal u ns := by
      unfold sends
      rcases hpid : (u.proc n).pid with _ | _
      · simp [hpid]
      · simp [hpid]
    rw [List.foldl_cons, hall, ← hsends]
    exact hone.trans hrest

theorem mem_survivors : n ∈ u.survivors ↔ u.running n = true := by
  unfold Unit.survivors children
  rw [List.mem_filter]
  refine ⟨fun h => h.2, fun h => ⟨?_, h⟩⟩
  cases n <;> simp

theorem mem_sends {ns : List Name} {r : Reach} {s : Signal} :
    (m, s, r) ∈ sends reach signal u ns ↔ m ∈ ns ∧ (u.proc m).pid = true ∧ s = signal ∧ r = reach m := by
  unfold sends
  simp only [List.mem_map, List.mem_filter, Prod.mk.injEq]
  constructor
  · rintro ⟨a, ⟨ha, hpid⟩, rfl, rfl, rfl⟩
    exact ⟨ha, hpid, rfl, rfl⟩
  · rintro ⟨hm, hpid, rfl, rfl⟩
    exact ⟨m, ⟨hm, hpid⟩, rfl, rfl, rfl⟩

/-- What `shutdown` does up to its `await`. -/
structure ShutdownSpec (u : Unit) (r : Unit × Option (List Name)) : Prop where
  signals : ∃ more, Signalled u r.1 more ∧ ∀ n s r', (n, s, r') ∈ more → s = .SIGTERM
  term : ∀ n, r.1.running n = true → (r.1.proc n).pid = true → r.1.Sent n .SIGTERM
  none : r.2 = none → ∀ n, r.1.running n = false
  some : ∀ exits, r.2 = some exits → exits ≠ [] ∧ ∀ n, r.1.running n = true → n ∈ exits

theorem shutdown_spec (reach : Name → Reach) (u : Unit) : ShutdownSpec u (shutdown reach u) := by
  unfold shutdown
  split_ifs with hempty
  · have hnone : ∀ n, u.running n = false := by
      intro n
      by_contra hn
      have hmem := mem_survivors.mpr (by simpa using hn)
      rw [List.isEmpty_iff.mp hempty] at hmem
      cases hmem
    refine ⟨⟨[], .refl u, fun _ _ _ h => absurd h List.not_mem_nil⟩, ?_, fun _ => hnone, ?_⟩
    · intro n hn
      exact absurd ((hnone n).symm.trans hn) Bool.false_ne_true
    · intro exits h
      cases h
  · have hall := foldl_signalled reach .SIGTERM u.survivors u
    refine ⟨⟨_, hall, fun n s r' h => (mem_sends.mp h).2.2.1⟩, ?_, ?_, ?_⟩
    · intro n hn hpid
      have hmem : n ∈ u.survivors := mem_survivors.mpr (hall.running hn)
      refine ⟨reach n, ?_⟩
      rw [hall.sent]
      exact List.mem_append_right _ (mem_sends.mpr ⟨hmem, (hall.pid n).symm.trans hpid, rfl, rfl⟩)
    · intro h
      cases h
    · rintro exits ⟨⟩
      refine ⟨by simpa using hempty, ?_⟩
      intro n hn
      exact mem_survivors.mpr (hall.running hn)

/-- What the end of a grace period does. -/
theorem killSurvivors_spec (reach : Name → Reach) (u : Unit) :
    ∃ more, Signalled u (killSurvivors reach u) more ∧
      (∀ n s r, (n, s, r) ∈ more → s = .SIGKILL ∧ u.running n = true ∧ (u.proc n).pid = true) ∧
      ∀ n, (killSurvivors reach u).running n = true → ((killSurvivors reach u).proc n).pid = true →
        (killSurvivors reach u).Sent n .SIGKILL := by
  have hall := foldl_signalled reach .SIGKILL u.survivors u
  refine ⟨_, hall, ?_, ?_⟩
  · intro n s r h
    obtain ⟨hn, hpid, rfl, -⟩ := mem_sends.mp h
    exact ⟨rfl, mem_survivors.mp hn, hpid⟩
  · intro n hn hpid
    refine ⟨reach n, ?_⟩
    show _ ∈ (u.survivors.foldl (signalChild reach .SIGKILL) u).sent
    rw [hall.sent]
    exact List.mem_append_right _ (mem_sends.mpr ⟨mem_survivors.mpr (hall.running hn), (hall.pid n).symm.trans hpid,
      rfl, rfl⟩)

end Signals

/-! ## What holds at every moment -/

section Invariant

/-- Every `SIGKILL` has a `SIGTERM` before it. -/
def Ordered (sent : List (Name × Signal × Reach)) : Prop :=
  ∀ pre post n r, sent = pre ++ (n, .SIGKILL, r) :: post → ∃ r', (n, .SIGTERM, r') ∈ pre

theorem Ordered.append {a b : List (Name × Signal × Reach)} (ha : Ordered a)
    (hb : ∀ n r, (n, .SIGKILL, r) ∈ b → ∃ r', (n, .SIGTERM, r') ∈ a) : Ordered (a ++ b) := by
  intro pre post n r h
  rcases List.append_eq_append_iff.mp h with ⟨c, rfl, hc⟩ | ⟨c, rfl, hc⟩
  · obtain ⟨r', hr'⟩ := hb n r (by rw [hc]; simp)
    exact ⟨r', List.mem_append_left _ hr'⟩
  · rcases c with _ | ⟨x, c⟩
    · obtain ⟨r', hr'⟩ := hb n r (by rw [show b = _ from hc.symm]; simp)
      exact ⟨r', by simpa using hr'⟩
    · obtain ⟨rfl, -⟩ := List.cons.inj hc
      exact ha pre c n r rfl

/-- The exit code of the unit. -/
def exitCode (signalled : Option Signal) (first : Exit) : ℤ :=
  match signalled with
  | some s => exitCodeFor none (some s)
  | none => first.code

structure Inv (u : Unit) : Prop where
  ordered : Ordered u.sent
  /-- After the end of a child or a signal, whatever runs has been asked to stop. -/
  term : u.first.isSome = true ∨ u.signalled.isSome = true →
    ∀ n, u.running n = true → (u.proc n).pid = true → u.Sent n .SIGTERM
  firstExit : u.main = .firstExit → u.first = none
  /-- `main` awaits whatever runs. -/
  stopping : ∀ exits, u.main = .stopping exits → u.first.isSome = true ∧ exits ≠ [] ∧
    ∀ n, u.running n = true → n ∈ exits
  signalStop : u.signalStop.isSome = true → u.signalled.isSome = true
  exited : ∀ code, u.main = .exited code → ∃ f, u.first = some f ∧ code = exitCode u.signalled f ∧
    ∀ n, u.running n = true → (u.proc n).pid = true → u.Sent n .SIGKILL

variable {reach : Name → Reach} {u : Unit} {n : Name}

theorem Unit.Sent.append {u' : Unit} {more : List (Name × Signal × Reach)} {s : Signal}
    (hs : u.Sent n s) (h : u'.sent = u.sent ++ more) : u'.Sent n s := by
  obtain ⟨r, hr⟩ := hs
  refine ⟨r, ?_⟩
  rw [h]
  exact List.mem_append_left _ hr

@[simp] theorem started_main (pid : Name → Bool) : (started pid).main = .firstExit := rfl

@[simp] theorem started_handlers (pid : Name → Bool) : (started pid).handlers = [.SIGINT, .SIGTERM] := rfl

@[simp] theorem started_sent (pid : Name → Bool) : (started pid).sent = [] := rfl

theorem inv_started (pid : Name → Bool) : Inv (started pid) where
  ordered := by
    intro pre post n r h
    simp at h
  term := by
    rintro (h | h)
    · cases h
    · cases h
  firstExit := fun _ => rfl
  stopping := fun _ h => by cases h
  signalStop := fun h => by cases h
  exited := fun _ h => by cases h

/-- The end of the first child. -/
theorem inv_afterFirst (hordered : Ordered u.sent) (hstop : u.signalStop.isSome = true → u.signalled.isSome = true)
    (f : Exit) : Inv (afterFirst reach u f) := by
  have hspec := shutdown_spec reach { u with first := some f }
  unfold afterFirst
  generalize shutdown reach { u with first := some f } = r at hspec ⊢
  obtain ⟨u', w⟩ := r
  obtain ⟨⟨more, hmore, hterms⟩, hterm, hnone, hsome⟩ := hspec
  dsimp only at hmore hterm hnone hsome
  have hsent : Ordered u'.sent := by
    rw [hmore.sent]
    exact hordered.append fun n r h => absurd (hterms n _ r h) (by simp)
  have hfirst : u'.first = some f := hmore.first
  have hstop' : u'.signalStop.isSome = true → u'.signalled.isSome = true := by
    rw [hmore.signalStop, hmore.signalled]
    exact hstop
  rcases w with _ | exits
  · refine ⟨hsent, fun _ => hterm, ?_, ?_, hstop', ?_⟩
    · intro h
      cases h
    · intro exits h
      cases h
    · rintro code ⟨⟩
      refine ⟨f, hfirst, rfl, ?_⟩
      intro n hn
      exact absurd ((hnone rfl n).symm.trans hn) Bool.false_ne_true
  · obtain ⟨hne, hmem⟩ := hsome exits rfl
    refine ⟨hsent, fun _ => hterm, ?_, ?_, hstop', ?_⟩
    · intro h
      cases h
    · rintro exits' ⟨⟩
      refine ⟨?_, hne, hmem⟩
      show u'.first.isSome = true
      rw [hfirst]
      rfl
    · intro code h
      cases h

/-- A child ends: nothing that ran before has begun to run. -/
structure Ends (u u' : Unit) : Prop where
  running : ∀ n, u'.running n = true → u.running n = true
  pid : ∀ n, (u'.proc n).pid = (u.proc n).pid
  sent : u'.sent = u.sent
  first : u'.first = u.first
  signalled : u'.signalled = u.signalled
  signalStop : u'.signalStop.isSome = true → u.signalStop.isSome = true

theorem Ends.term {u' : Unit} (h : Ends u u') (hu : Inv u) :
    u'.first.isSome = true ∨ u'.signalled.isSome = true →
      ∀ n, u'.running n = true → (u'.proc n).pid = true → u'.Sent n .SIGTERM := by
  intro hcause n hn hpid
  rw [h.first, h.signalled] at hcause
  obtain ⟨r, hr⟩ := hu.term hcause n (h.running n hn) ((h.pid n).symm.trans hpid)
  exact ⟨r, by rwa [h.sent]⟩

theorem setProc_running {c : ChildProcess} {m : Name} (hc : c.stillRunning = true → u.running n = true)
    (hm : (u.setProc n c).running m = true) : u.running m = true := by
  by_cases hmn : m = n
  · subst hmn
    refine hc ?_
    simpa [Unit.running, Unit.setProc] using hm
  · simpa [Unit.running, Unit.setProc, hmn] using hm

theorem setProc_pid {c : ChildProcess} (hc : c.pid = (u.proc n).pid) (m : Name) :
    ((u.setProc n c).proc m).pid = (u.proc m).pid := by
  by_cases hmn : m = n
  · subst hmn
    simpa [Unit.setProc] using hc
  · simp [Unit.setProc, hmn]

theorem not_running_ended {how : End} (c : ChildProcess) : (c.ended how).stillRunning = false := by
  cases how <;> simp [ChildProcess.ended, ChildProcess.stillRunning]

/-- `n` has ended, so what runs is awaited without it. -/
theorem mem_awaited {exits exits' : List Name} {m : Name} (h : awaited n exits = some exits') (hm : m ∈ exits)
    (hne : m ≠ n) : m ∈ exits' := by
  unfold awaited at h
  split_ifs at h
  cases h
  exact (List.mem_erase_of_ne hne).mpr hm

theorem awaited_ne_nil {exits exits' : List Name} (h : awaited n exits = some exits') : exits' ≠ [] := by
  unfold awaited at h
  split_ifs at h with hempty
  cases h
  simpa using hempty

theorem eq_of_awaited_none {exits : List Name} {m : Name} (h : awaited n exits = none) (hm : m ∈ exits) : m = n := by
  unfold awaited at h
  split_ifs at h with hempty
  by_contra hne
  have hmem := (List.mem_erase_of_ne hne).mpr hm
  rw [List.isEmpty_iff.mp hempty] at hmem
  cases hmem

/-- `main` hears of the end of `n`. -/
theorem inv_mainExit {u₀ : Unit} (hu : Inv u₀) (h : Ends u₀ u) (hmain : u.main = u₀.main) (halive : u₀.main.alive = true)
    (hn : u.running n = false) (e : Exit) (he : e.name = n) : Inv (mainExit reach u e) := by
  have hordered : Ordered u.sent := by
    rw [h.sent]
    exact hu.ordered
  have hstop : u.signalStop.isSome = true → u.signalled.isSome = true := by
    rw [h.signalled]
    exact fun hs => hu.signalStop (h.signalStop hs)
  unfold mainExit
  cases hph : u.main with
  | firstExit => exact inv_afterFirst hordered hstop e
  | stopping exits =>
    obtain ⟨hfirst, -, hmem⟩ := hu.stopping exits (hmain.symm.trans hph)
    obtain ⟨f, hf⟩ := Option.isSome_iff_exists.mp hfirst
    have hf' : u.first = some f := h.first.trans hf
    rcases haw : awaited e.name exits with _ | exits'
    · dsimp only
      rw [haw, hf']
      refine ⟨hordered, h.term hu, ?_, ?_, hstop, ?_⟩
      · intro h
        cases h
      · intro exits h
        cases h
      · rintro code ⟨⟩
        refine ⟨f, hf', rfl, ?_⟩
        intro m hm
        have hmn : m = n := he ▸ eq_of_awaited_none haw (hmem m (h.running m hm))
        rw [show (u.exit f).running m = u.running m from rfl, hmn, hn] at hm
        cases hm
    · dsimp only
      rw [haw]
      refine ⟨hordered, h.term hu, ?_, ?_, hstop, ?_⟩
      · intro h
        cases h
      · rintro _ ⟨⟩
        refine ⟨?_, awaited_ne_nil haw, ?_⟩
        · show u.first.isSome = true
          rw [hf']
          rfl
        · intro m hm
          have hm' : u.running m = true := hm
          refine mem_awaited haw (hmem m (h.running m hm')) ?_
          rintro rfl
          rw [he, hn] at hm'
          cases hm'
      · intro code h
        cases h
  | exited code =>
    rw [← hmain, hph] at halive
    cases halive
  | died s =>
    rw [← hmain, hph] at halive
    cases halive

theorem inv_of_ends {u₀ : Unit} (hu : Inv u₀) (h : Ends u₀ u) (hmain : u.main = u₀.main) : Inv u where
  ordered := by
    rw [h.sent]
    exact hu.ordered
  term := h.term hu
  firstExit := by
    rw [hmain, h.first]
    exact hu.firstExit
  stopping := by
    intro exits hexits
    rw [hmain] at hexits
    obtain ⟨hfirst, hne, hmem⟩ := hu.stopping exits hexits
    exact ⟨by rw [h.first, hfirst], hne, fun n hn => hmem n (h.running n hn)⟩
  signalStop := by
    rw [h.signalled]
    exact fun hs => hu.signalStop (h.signalStop hs)
  exited := by
    intro code hcode
    rw [hmain] at hcode
    obtain ⟨f, hf, rfl, hkill⟩ := hu.exited code hcode
    refine ⟨f, h.first.trans hf, by rw [h.signalled], ?_⟩
    intro n hn hpid
    obtain ⟨r, hr⟩ := hkill n (h.running n hn) ((h.pid n).symm.trans hpid)
    exact ⟨r, by rwa [h.sent]⟩

theorem inv_exit (hu : Inv u) (halive : u.main.alive = true) (how : End) :
    Inv (mainExit reach { u.setProc n ((u.proc n).ended how) with
      signalStop := u.signalStop.bind (awaited n) } ⟨n, how.exitCode⟩) := by
  have hends : Ends u { u.setProc n ((u.proc n).ended how) with signalStop := u.signalStop.bind (awaited n) } := by
    refine ⟨?_, ?_, rfl, rfl, rfl, ?_⟩
    · intro m hm
      refine setProc_running (c := (u.proc n).ended how) ?_ hm
      intro hc
      rw [not_running_ended] at hc
      cases hc
    · intro m
      exact setProc_pid (by cases how <;> rfl) m
    · intro hs
      rcases hstop : u.signalStop with _ | exits
      · rw [hstop] at hs
        cases hs
      · rfl
  refine inv_mainExit (n := n) hu hends rfl halive ?_ _ rfl
  show ((u.setProc n ((u.proc n).ended how)).proc n).stillRunning = false
  simp [Unit.setProc, not_running_ended]

theorem mainError_firstExit (h : u.main = .firstExit) : mainError reach u n = afterFirst reach u ⟨n, 1⟩ := by
  unfold mainError
  rw [h]

theorem mainError_later (h : u.main ≠ .firstExit) : mainError reach u n = u := by
  unfold mainError
  split
  · rename_i hmain
    exact absurd hmain h
  · rfl

theorem inv_error (hu : Inv u) (hcode : (u.proc n).exitCode = none) (exitCode : Option ℤ) :
    Inv (mainError reach (u.setProc n { u.proc n with exitCode }) n) := by
  have hends : Ends u (u.setProc n { u.proc n with exitCode }) := by
    refine ⟨?_, fun m => setProc_pid (c := { u.proc n with exitCode }) rfl m, rfl, rfl, rfl, fun hs => hs⟩
    intro m hm
    refine setProc_running ?_ hm
    intro hc
    simp only [ChildProcess.stillRunning, Bool.and_eq_true, Option.isNone_iff_eq_none, Bool.not_eq_true'] at hc
    exact running_iff.mpr ⟨hcode, hc.1.2, hc.2⟩
  by_cases hmain : u.main = .firstExit
  · rw [mainError_firstExit (u := u.setProc n { u.proc n with exitCode }) hmain]
    exact inv_afterFirst (u := u.setProc n { u.proc n with exitCode }) hu.ordered hu.signalStop ⟨n, 1⟩
  · rw [mainError_later (u := u.setProc n { u.proc n with exitCode }) hmain]
    exact inv_of_ends hu hends rfl

theorem inv_onSignal (hu : Inv u) (halive : u.main.alive = true) (s : Signal) : Inv (onSignal reach s u) := by
  unfold onSignal
  split_ifs with hsome
  · exact hu
  · have hspec := shutdown_spec reach { u with signalled := some s }
    dsimp only
    generalize shutdown reach { u with signalled := some s } = r at hspec ⊢
    obtain ⟨u', w⟩ := r
    obtain ⟨⟨more, hmore, hterms⟩, hterm, -, -⟩ := hspec
    dsimp only at hmore hterm ⊢
    have hmain : u'.main = u.main := hmore.main
    have hfirst : u'.first = u.first := hmore.first
    have hsignalled : u'.signalled = some s := hmore.signalled
    refine ⟨?_, fun _ => hterm, ?_, ?_, ?_, ?_⟩
    · show Ordered u'.sent
      rw [hmore.sent]
      exact hu.ordered.append fun n r h => absurd (hterms n _ r h) (by simp)
    · show u'.main = .firstExit → u'.first = none
      rw [hmain, hfirst]
      exact hu.firstExit
    · intro exits hexits
      obtain ⟨hf, hne, hmem⟩ := hu.stopping exits (hmain.symm.trans hexits)
      refine ⟨?_, hne, fun n hn => hmem n (hmore.running hn)⟩
      show u'.first.isSome = true
      rw [hfirst, hf]
    · intro _
      show u'.signalled.isSome = true
      rw [hsignalled]
      rfl
    · intro code hcode
      rw [show u.main = .exited code from hmain.symm.trans hcode] at halive
      cases halive

theorem ordered_killSurvivors (reach : Name → Reach) (hu : Inv u) (hcause : u.first.isSome = true ∨ u.signalled.isSome = true) :
    Ordered (killSurvivors reach u).sent := by
  obtain ⟨more, hmore, hkills, -⟩ := killSurvivors_spec reach u
  rw [hmore.sent]
  refine hu.ordered.append ?_
  intro n r h
  obtain ⟨-, hn, hpid⟩ := hkills n _ r h
  exact hu.term hcause n hn hpid

/-- The grace period of the signal handler ends. -/
theorem inv_signalGrace (hu : Inv u) (hstop : u.signalStop.isSome = true) :
    Inv { killSurvivors reach u with signalStop := none } := by
  have hordered := ordered_killSurvivors reach hu (.inr (hu.signalStop hstop))
  obtain ⟨more, hmore, -, -⟩ := killSurvivors_spec reach u
  generalize killSurvivors reach u = u' at *
  refine ⟨hordered, ?_, ?_, ?_, fun h => absurd h Bool.false_ne_true, ?_⟩
  · intro hcause n hn hpid
    have hcause' : u.first.isSome = true ∨ u.signalled.isSome = true := by
      rw [← hmore.first, ← hmore.signalled]
      exact hcause
    exact (hu.term hcause' n (hmore.running hn) ((hmore.pid n).symm.trans hpid)).append hmore.sent
  · show u'.main = .firstExit → u'.first = none
    rw [hmore.main, hmore.first]
    exact hu.firstExit
  · intro exits hexits
    obtain ⟨hf, hne, hmem⟩ := hu.stopping exits (hmore.main.symm.trans hexits)
    refine ⟨?_, hne, fun n hn => hmem n (hmore.running hn)⟩
    show u'.first.isSome = true
    rw [hmore.first, hf]
  · intro code hcode
    obtain ⟨f, hf, hexit, hkill⟩ := hu.exited code (hmore.main.symm.trans hcode)
    refine ⟨f, hmore.first.trans hf, ?_, ?_⟩
    · show code = exitCode u'.signalled f
      rw [hmore.signalled]
      exact hexit
    · intro n hn hpid
      exact (hkill n (hmore.running hn) ((hmore.pid n).symm.trans hpid)).append hmore.sent

/-- The grace period of `main` ends. -/
theorem inv_mainGrace {f : Exit} (hu : Inv u) (hf : u.first = some f) : Inv ((killSurvivors reach u).exit f) := by
  have hordered := ordered_killSurvivors reach hu (.inl (by rw [hf]; rfl))
  obtain ⟨more, hmore, -, hkilled⟩ := killSurvivors_spec reach u
  generalize killSurvivors reach u = u' at *
  refine ⟨hordered, ?_, ?_, ?_, ?_, ?_⟩
  · intro hcause n hn hpid
    have hcause' : u.first.isSome = true ∨ u.signalled.isSome = true := by
      rw [← hmore.first, ← hmore.signalled]
      exact hcause
    exact (hu.term hcause' n (hmore.running hn) ((hmore.pid n).symm.trans hpid)).append hmore.sent
  · intro h
    cases h
  · intro exits h
    cases h
  · show u'.signalStop.isSome = true → u'.signalled.isSome = true
    rw [hmore.signalStop, hmore.signalled]
    exact hu.signalStop
  · rintro code ⟨⟩
    exact ⟨f, hmore.first.trans hf, rfl, hkilled⟩

/-- **One event keeps the invariant.** -/
theorem inv_step (hu : Inv u) (e : Event) : Inv (step u e) := by
  unfold step
  split_ifs with hended
  · exact hu
  · have halive : u.main.alive = true := by simpa using hended
    cases e with
    | exit n how reach =>
      dsimp only
      split_ifs with hgone
      · exact hu
      · exact inv_exit hu halive how
    | error n exitCode reach =>
      dsimp only
      split_ifs with hgone
      · exact hu
      · have hcode : (u.proc n).exitCode = none := by
          simp only [Bool.or_eq_true, not_or, Option.isSome_iff_ne_none, ne_eq, not_not] at hgone
          exact hgone.2
        exact inv_error hu hcode exitCode
    | signal s reach =>
      dsimp only
      split_ifs
      · have hu' : Inv { u with handlers := u.handlers.erase s } :=
          ⟨hu.ordered, hu.term, hu.firstExit, hu.stopping, hu.signalStop, hu.exited⟩
        exact inv_onSignal hu' halive s
      · refine ⟨hu.ordered, hu.term, ?_, ?_, hu.signalStop, ?_⟩
        · intro h
          cases h
        · intro exits h
          cases h
        · intro code h
          cases h
    | signalGrace reach =>
      dsimp only
      split
      · rename_i exits hstop
        exact inv_signalGrace hu (by rw [hstop]; rfl)
      · exact hu
    | mainGrace reach =>
      dsimp only
      split
      · rename_i exits f hmain hf
        exact inv_mainGrace hu hf
      · exact hu

theorem inv_run (pid : Name → Bool) (es : List Event) : Inv (run step (started pid) es) :=
  run_induct (C := fun _ _ _ => True) (J := fun _ u => Inv u) (inv_started pid) (fun _ e hu _ => inv_step hu e)
    fun _ _ _ _ => trivial

end Invariant

/-! ## The first child to end -/

section First

variable {reach : Name → Reach} {u u' : Unit} {pid : Name → Bool}

/-- The end of a child: an exit, or a failure to start. -/
def Event.end? (pid : Name → Bool) : Event → Option Exit
  | exit n how _ => if pid n then some ⟨n, how.exitCode⟩ else none
  | error n _ _ => if pid n then none else some ⟨n, 1⟩
  | _ => none

/-- While `main` awaits the first exit, no child has ended. -/
structure Fresh (pid : Name → Bool) (u : Unit) : Prop where
  pid : ∀ n, (u.proc n).pid = pid n
  none : u.main = .firstExit → ∀ n, (u.proc n).exitCode = none ∧ (u.proc n).signalCode = none

theorem fresh_of_pid (hpid : ∀ n, (u.proc n).pid = pid n) (hmain : u.main ≠ .firstExit) : Fresh pid u :=
  ⟨hpid, fun h => absurd h hmain⟩

theorem Signalled.fresh {more : List (Name × Signal × Reach)} (h : Signalled u u' more) (hu : Fresh pid u) :
    Fresh pid u' := by
  refine ⟨fun n => (h.pid n).trans (hu.pid n), ?_⟩
  intro hmain n
  obtain ⟨hexit, hsignal⟩ := hu.none (h.main.symm.trans hmain) n
  exact ⟨(h.exitCode n).trans hexit, (h.signalCode n).trans hsignal⟩

theorem afterFirst_spec (reach : Name → Reach) (u : Unit) (f : Exit) : (afterFirst reach u f).main ≠ .firstExit ∧ (afterFirst reach u f).first = some f ∧
    ∀ n, ((afterFirst reach u f).proc n).pid = (u.proc n).pid := by
  have hspec := shutdown_spec reach { u with first := some f }
  unfold afterFirst
  generalize shutdown reach { u with first := some f } = r at hspec ⊢
  obtain ⟨u', _ | exits⟩ := r
  · obtain ⟨more, hmore, -⟩ := hspec.signals
    exact ⟨by simp [Unit.exit], hmore.first, hmore.pid⟩
  · obtain ⟨more, hmore, -⟩ := hspec.signals
    exact ⟨by simp, hmore.first, hmore.pid⟩

/-- Later exits change neither the first one nor who could be started. -/
theorem mainExit_spec (reach : Name → Reach) (u : Unit) (e : Exit) : (u.main ≠ .firstExit → (mainExit reach u e).first = u.first ∧
      (mainExit reach u e).main ≠ .firstExit) ∧
    ∀ n, ((mainExit reach u e).proc n).pid = (u.proc n).pid := by
  unfold mainExit
  cases hmain : u.main with
  | firstExit => exact ⟨fun h => absurd rfl h, (afterFirst_spec reach u e).2.2⟩
  | stopping exits =>
    dsimp only
    refine ⟨fun _ => ?_, ?_⟩
    · split
      · exact ⟨rfl, by simp [Unit.exit]⟩
      · exact ⟨rfl, by simp [hmain]⟩
      · exact ⟨rfl, by simp⟩
    · intro n
      split <;> rfl
  | exited code => exact ⟨fun _ => ⟨rfl, by simp [hmain]⟩, fun _ => rfl⟩
  | died s => exact ⟨fun _ => ⟨rfl, by simp [hmain]⟩, fun _ => rfl⟩

/-- `main` is past `firstExit` once a child has ended. -/
theorem first_isSome (hu : Inv u) (halive : u.main.alive = true) (hmain : u.main ≠ .firstExit) :
    ∃ f, u.first = some f := by
  cases h : u.main with
  | firstExit => exact absurd h hmain
  | stopping exits => exact Option.isSome_iff_exists.mp (hu.stopping exits h).1
  | exited code =>
    rw [h] at halive
    cases halive
  | died s =>
    rw [h] at halive
    cases halive

theorem onSignal_spec (reach : Name → Reach) (s : Signal) (u : Unit) : (onSignal reach s u).main = u.main ∧
    (onSignal reach s u).first = u.first ∧ (onSignal reach s u).handlers = u.handlers ∧
    ∀ pid, Fresh pid u → Fresh pid (onSignal reach s u) := by
  unfold onSignal
  split_ifs
  · exact ⟨rfl, rfl, rfl, fun _ => id⟩
  · obtain ⟨more, hmore, -⟩ := (shutdown_spec reach { u with signalled := some s }).signals
    refine ⟨hmore.main, hmore.first, hmore.handlers, ?_⟩
    intro pid hfresh
    have hfresh' : Fresh pid { u with signalled := some s } := ⟨hfresh.pid, hfresh.none⟩
    have hafter := hmore.fresh hfresh'
    exact ⟨hafter.pid, hafter.none⟩

/-- The end of a child, whichever event has brought it: `v` is the unit after its records. -/
theorem first_exit (reach : Name → Reach) (n : Name) (code : ℤ) {v : Unit} (hu : Inv u) (halive : u.main.alive = true)
    (hmain : v.main = u.main) (hfirst : v.first = u.first) (hpid : ∀ m, (v.proc m).pid = pid m) :
    Fresh pid (mainExit reach v ⟨n, code⟩) ∧
      (mainExit reach v ⟨n, code⟩).first = u.first.or (some ⟨n, code⟩) := by
  obtain ⟨hlater, hpids⟩ := mainExit_spec reach v ⟨n, code⟩
  by_cases hm : v.main = .firstExit
  · have hspec := afterFirst_spec reach v ⟨n, code⟩
    have heq : mainExit reach v ⟨n, code⟩ = afterFirst reach v ⟨n, code⟩ := by
      unfold mainExit
      rw [hm]
    rw [heq, hu.firstExit (hmain.symm.trans hm)]
    exact ⟨fresh_of_pid (fun m => (hspec.2.2 m).trans (hpid m)) hspec.1, hspec.2.1⟩
  · obtain ⟨hsame, hne⟩ := hlater hm
    obtain ⟨f, hf⟩ := first_isSome hu halive (hmain ▸ hm)
    refine ⟨fresh_of_pid (fun m => (hpids m).trans (hpid m)) hne, ?_⟩
    rw [hsame, hfirst, hf]
    rfl

/-- A child ends, and is the first one or comes after it. -/
theorem first_childExit (hu : Inv u) (hfresh : Fresh pid u) (halive : u.main.alive = true) (n : Name) (how : End)
    (reach : Name → Reach) :
    Fresh pid (step u (.exit n how reach)) ∧
      (step u (.exit n how reach)).first = u.first.or (Event.end? pid (.exit n how reach)) := by
  unfold step
  rw [if_neg (by simp [halive])]
  dsimp only
  split_ifs with hgone
  · refine ⟨hfresh, ?_⟩
    by_cases hmain : u.main = .firstExit
    · obtain ⟨hexit, hsignal⟩ := hfresh.none hmain n
      have hpid : pid n = false := by
        rw [← hfresh.pid n]
        simpa [hexit, hsignal] using hgone
      simp [Event.end?, hpid]
    · obtain ⟨f, hf⟩ := first_isSome hu halive hmain
      rw [hf]
      rfl
  · have hpid : pid n = true := by
      rw [← hfresh.pid n]
      by_contra h
      exact hgone (by simp [show (u.proc n).pid = false by simpa using h])
    have hpids : ∀ m, ((u.setProc n ((u.proc n).ended how)).proc m).pid = pid m := fun m =>
      (setProc_pid (by cases how <;> rfl) m).trans (hfresh.pid m)
    rw [show Event.end? pid (.exit n how reach) = some ⟨n, how.exitCode⟩ by simp [Event.end?, hpid]]
    exact first_exit reach n how.exitCode
      (v := { u.setProc n ((u.proc n).ended how) with signalStop := u.signalStop.bind (awaited n) })
      hu halive rfl rfl hpids

/-- A child that could not be started ends with its error. -/
theorem first_childError (hu : Inv u) (hfresh : Fresh pid u) (halive : u.main.alive = true) (n : Name)
    (exitCode : Option ℤ) (reach : Name → Reach) :
    Fresh pid (step u (.error n exitCode reach)) ∧
      (step u (.error n exitCode reach)).first = u.first.or (Event.end? pid (.error n exitCode reach)) := by
  unfold step
  rw [if_neg (by simp [halive])]
  dsimp only
  split_ifs with hgone
  · refine ⟨hfresh, ?_⟩
    by_cases hmain : u.main = .firstExit
    · have hpid : pid n = true := by
        rw [← hfresh.pid n]
        simpa [(hfresh.none hmain n).1] using hgone
      simp [Event.end?, hpid]
    · obtain ⟨f, hf⟩ := first_isSome hu halive hmain
      rw [hf]
      rfl
  · have hpid : pid n = false := by
      rw [← hfresh.pid n]
      by_contra h
      exact hgone (by simp [show (u.proc n).pid = true by simpa using h])
    have hpids : ∀ m, ((u.setProc n { u.proc n with exitCode }).proc m).pid = pid m := fun m =>
      (setProc_pid (c := { u.proc n with exitCode }) rfl m).trans (hfresh.pid m)
    have hend : Event.end? pid (.error n exitCode reach) = some ⟨n, 1⟩ := by simp [Event.end?, hpid]
    rw [hend]
    by_cases hmain : u.main = .firstExit
    · have hspec := afterFirst_spec reach (u.setProc n { u.proc n with exitCode }) ⟨n, 1⟩
      rw [mainError_firstExit (u := u.setProc n { u.proc n with exitCode }) hmain, hu.firstExit hmain]
      exact ⟨fresh_of_pid (fun m => (hspec.2.2 m).trans (hpids m)) hspec.1, hspec.2.1⟩
    · rw [mainError_later (u := u.setProc n { u.proc n with exitCode }) hmain]
      obtain ⟨f, hf⟩ := first_isSome hu halive hmain
      rw [hf]
      exact ⟨fresh_of_pid hpids hmain, hf⟩

/-- Once the unit is gone, the first exit is known, unless a signal has taken it down. -/
theorem first_ended (hu : Inv u) (hended : u.main.alive = false) (hdied : ∀ s, u.main ≠ .died s) :
    u.first.isSome = true := by
  cases hmain : u.main with
  | firstExit =>
    rw [hmain] at hended
    cases hended
  | stopping exits =>
    rw [hmain] at hended
    cases hended
  | exited code =>
    obtain ⟨f, hf, -⟩ := hu.exited code hmain
    rw [hf]
    rfl
  | died s => exact absurd hmain (hdied s)

/-- **One event sets the first exit, if it is the first end of a child.** -/
theorem first_step (hu : Inv u) (hfresh : Fresh pid u) (e : Event) :
    Fresh pid (step u e) ∧ ((∀ s, (step u e).main ≠ .died s) → (step u e).first = u.first.or (e.end? pid)) := by
  by_cases halive : u.main.alive = true
  · cases e with
    | exit n how reach =>
      obtain ⟨hfresh', hfirst⟩ := first_childExit hu hfresh halive n how reach
      exact ⟨hfresh', fun _ => hfirst⟩
    | error n exitCode reach =>
      obtain ⟨hfresh', hfirst⟩ := first_childError hu hfresh halive n exitCode reach
      exact ⟨hfresh', fun _ => hfirst⟩
    | signal s reach =>
      unfold step
      rw [if_neg (by simp [halive])]
      dsimp only
      split_ifs
      · obtain ⟨-, hfirst, -, hafter⟩ := onSignal_spec reach s { u with handlers := u.handlers.erase s }
        refine ⟨hafter pid ⟨hfresh.pid, hfresh.none⟩, fun _ => ?_⟩
        rw [hfirst]
        simp [Event.end?]
      · exact ⟨fresh_of_pid hfresh.pid (by simp), fun hdied => absurd rfl (hdied s)⟩
    | signalGrace reach =>
      unfold step
      rw [if_neg (by simp [halive])]
      dsimp only
      split
      · obtain ⟨more, hmore, -⟩ := killSurvivors_spec reach u
        have hafter := hmore.fresh hfresh
        refine ⟨⟨hafter.pid, hafter.none⟩, fun _ => ?_⟩
        rw [show _ = u.first from hmore.first]
        simp [Event.end?]
      · exact ⟨hfresh, fun _ => by simp [Event.end?]⟩
    | mainGrace reach =>
      unfold step
      rw [if_neg (by simp [halive])]
      dsimp only
      split
      · obtain ⟨more, hmore, -⟩ := killSurvivors_spec reach u
        refine ⟨fresh_of_pid (hmore.fresh hfresh).pid (by simp [Unit.exit]), fun _ => ?_⟩
        show (killSurvivors reach u).first = _
        rw [hmore.first]
        simp [Event.end?]
      · exact ⟨hfresh, fun _ => by simp [Event.end?]⟩
  · have hended : u.main.alive = false := by simpa using halive
    have hstep : step u e = u := by
      unfold step
      rw [if_pos (by simp [hended])]
    rw [hstep]
    refine ⟨hfresh, fun hdied => ?_⟩
    obtain ⟨f, hf⟩ := Option.isSome_iff_exists.mp (first_ended hu hended hdied)
    rw [hf]
    rfl

theorem first_run (pid : Name → Bool) (es : List Event) :
    Fresh pid (run step (started pid) es) ∧ ((∀ s, (run step (started pid) es).main ≠ .died s) →
      (run step (started pid) es).first = es.findSome? (Event.end? pid)) := by
  have hrun : Inv (run step (started pid) es) ∧ Fresh pid (run step (started pid) es) ∧
      ((∀ s, (run step (started pid) es).main ≠ .died s) →
        (run step (started pid) es).first = es.findSome? (Event.end? pid)) := by
    refine run_induct (C := fun _ _ _ => True) (J := fun es u => Inv u ∧ Fresh pid u ∧
      ((∀ s, u.main ≠ .died s) → u.first = es.findSome? (Event.end? pid)))
      ⟨inv_started pid, ⟨fun _ => rfl, fun _ _ => ⟨rfl, rfl⟩⟩, fun _ => rfl⟩ ?_ fun _ _ _ _ => trivial
    rintro pre e ⟨hinv, hfresh, hfirst⟩ -
    generalize run step (started pid) pre = u at *
    obtain ⟨hfresh', hfirst'⟩ := first_step hinv hfresh e
    refine ⟨inv_step hinv e, hfresh', ?_⟩
    intro hdied
    have hbefore : ∀ s, u.main ≠ .died s := by
      intro s hs
      refine hdied s ?_
      unfold step
      rw [hs]
      exact hs
    rw [hfirst' hdied, hfirst hbefore, List.findSome?_append]
    have hlast : List.findSome? (Event.end? pid) [e] = e.end? pid := by
      rcases h : e.end? pid with _ | f <;> simp [h]
    rw [hlast]
  exact hrun.2

end First

/-! ## How the unit ends -/

section Ends

variable {pid : Name → Bool} {es : List Event}

/-- The child has ended. -/
def ChildProcess.Over (c : ChildProcess) : Prop := c.exitCode.isSome = true ∨ c.signalCode.isSome = true

/-- `SIGTERM`, and later `SIGKILL`. -/
def Unit.SentBoth (u : Unit) (n : Name) : Prop :=
  ∃ pre post r r', u.sent = pre ++ (n, .SIGKILL, r) :: post ∧ (n, .SIGTERM, r') ∈ pre

theorem Inv.sentBoth {u : Unit} {n : Name} (hu : Inv u) (h : u.Sent n .SIGKILL) : u.SentBoth n := by
  obtain ⟨r, hr⟩ := h
  obtain ⟨pre, post, hsent⟩ := List.mem_iff_append.mp hr
  obtain ⟨r', hr'⟩ := hu.ordered pre post n r hsent
  exact ⟨pre, post, r, r', hsent, hr'⟩

/-- **The unit exits with the first end, and leaves no child behind**: for every order of events, the exit code
is that of the signal that was taken, or else of the first child to end; and each child that could be started
has ended, or a signal has reached it past its process group, or it has been sent `SIGTERM` and later `SIGKILL`.
-/
theorem torn_down {code : ℤ} (hcode : (run step (started pid) es).main = .exited code) :
    (∃ f, es.findSome? (Event.end? pid) = some f ∧ code = exitCode (run step (started pid) es).signalled f) ∧
      ∀ n, pid n = true → ((run step (started pid) es).proc n).Over ∨
        ((run step (started pid) es).proc n).killed = true ∨ (run step (started pid) es).SentBoth n := by
  have hinv := inv_run pid es
  obtain ⟨hfresh, hfirst⟩ := first_run pid es
  generalize run step (started pid) es = u at *
  obtain ⟨f, hf, hexit, hkill⟩ := hinv.exited code hcode
  refine ⟨⟨f, ?_, hexit⟩, ?_⟩
  · rw [← hfirst (by simp [hcode]), hf]
  · intro n hn
    by_cases hrunning : u.running n = true
    · exact .inr (.inr (hinv.sentBoth (hkill n hrunning ((hfresh.pid n).trans hn))))
    · by_cases hkilled : (u.proc n).killed = true
      · exact .inr (.inl hkilled)
      · refine .inl ?_
        unfold ChildProcess.Over
        by_contra hover
        simp only [not_or, Option.isSome_iff_ne_none, ne_eq, not_not] at hover
        exact hrunning (running_iff.mpr ⟨hover.1, hover.2, by simpa using hkilled⟩)

theorem ended_step {u : Unit} (h : u.main.alive = false) (e : Event) : step u e = u := by
  unfold step
  rw [h]
  rfl

theorem ended_run {u : Unit} (h : u.main.alive = false) (es : List Event) : run step u es = u :=
  run_of_idle (ended_step h) es

/-- The end of the grace period ends the unit, whatever happens before. -/
theorem grace_run {u : Unit} {reach : Name → Reach} {later : List Event} (hu : Inv u) (hfresh : Fresh pid u)
    (hfirst : u.first.isSome = true) (hgrace : .mainGrace reach ∈ later) : (run step u later).main.alive = false := by
  induction later generalizing u with
  | nil => cases hgrace
  | cons e later ih =>
    rw [run_cons]
    by_cases halive : (step u e).main.alive = true
    · have hu' := inv_step hu e
      obtain ⟨hfresh', hfirst'⟩ := first_step hu hfresh e
      have hsome : (step u e).first.isSome = true := by
        obtain ⟨f, hf⟩ := Option.isSome_iff_exists.mp hfirst
        rw [hfirst' (fun s hs => by rw [hs] at halive; cases halive), hf]
        rfl
      refine ih hu' hfresh' hsome ?_
      rcases List.mem_cons.mp hgrace with rfl | hlater
      · -- the end of the grace period has not left the unit alive
        exfalso
        obtain ⟨f, hf⟩ := Option.isSome_iff_exists.mp hfirst
        unfold step at halive
        split_ifs at halive with hended
        · simp [halive] at hended
        · cases hmain : u.main with
          | firstExit =>
            rw [hu.firstExit hmain] at hf
            cases hf
          | stopping exits =>
            simp only [hmain, hf, Unit.exit, Main.alive] at halive
            cases halive
          | exited code =>
            rw [hmain] at hended
            exact hended rfl
          | died s =>
            rw [hmain] at hended
            exact hended rfl
      · exact hlater
    · rw [ended_run (by simpa using halive)]
      simpa using halive

/-- **Once a child has ended, the unit ends with the grace period of `main` at the latest**, whatever exits,
failures and signals come in between. -/
theorem unit_exits {later : List Event} {reach : Name → Reach} (hend : (es.findSome? (Event.end? pid)).isSome = true)
    (hgrace : .mainGrace reach ∈ later) : (run step (started pid) (es ++ later)).main.alive = false := by
  rw [run_append]
  by_cases halive : (run step (started pid) es).main.alive = true
  · obtain ⟨hfresh, hfirst⟩ := first_run pid es
    refine grace_run (inv_run pid es) hfresh ?_ hgrace
    rw [hfirst (fun s hs => by rw [hs] at halive; cases halive)]
    exact hend
  · rw [ended_run (by simpa using halive)]
    simpa using halive

/-! ### Signals that come twice -/

def Event.isSignal (s : Signal) : Event → Bool
  | signal s' _ => s' = s
  | _ => false

/-- The handlers and the signal that was taken stay as they are, and no signal takes the unit down. -/
structure Keeps (u u' : Unit) : Prop where
  handlers : u'.handlers = u.handlers
  signalled : u'.signalled = u.signalled
  died : ∀ s, u'.main = .died s → u.main = .died s

theorem keeps_afterFirst (reach : Name → Reach) (u : Unit) (f : Exit) : Keeps u (afterFirst reach u f) := by
  have hspec := shutdown_spec reach { u with first := some f }
  unfold afterFirst
  generalize shutdown reach { u with first := some f } = r at hspec ⊢
  obtain ⟨u', _ | exits⟩ := r
  · obtain ⟨more, hmore, -⟩ := hspec.signals
    exact ⟨hmore.handlers, hmore.signalled, fun s h => absurd h (by simp [Unit.exit])⟩
  · obtain ⟨more, hmore, -⟩ := hspec.signals
    exact ⟨hmore.handlers, hmore.signalled, fun s h => absurd h (by simp)⟩

theorem keeps_mainExit (reach : Name → Reach) (u : Unit) (e : Exit) : Keeps u (mainExit reach u e) := by
  unfold mainExit
  split
  · exact keeps_afterFirst reach u e
  · split
    · exact ⟨rfl, rfl, fun s h => absurd h (by simp [Unit.exit])⟩
    · exact ⟨rfl, rfl, fun s h => h⟩
    · exact ⟨rfl, rfl, fun s h => absurd h (by simp)⟩
  · exact ⟨rfl, rfl, fun s h => h⟩

/-- Only signals take handlers away. -/
theorem keeps_step {u : Unit} {e : Event} (he : ∀ s reach, e ≠ .signal s reach) : Keeps u (step u e) := by
  have hself : Keeps u u := ⟨rfl, rfl, fun _ h => h⟩
  unfold step
  split_ifs
  · exact hself
  · cases e with
    | exit n how reach =>
      dsimp only
      split_ifs
      · exact hself
      · have h := keeps_mainExit reach
          { u.setProc n ((u.proc n).ended how) with signalStop := u.signalStop.bind (awaited n) } ⟨n, how.exitCode⟩
        exact ⟨h.handlers, h.signalled, h.died⟩
    | error n exitCode reach =>
      dsimp only
      split_ifs
      · exact hself
      · by_cases hmain : u.main = .firstExit
        · rw [mainError_firstExit (u := u.setProc n { u.proc n with exitCode }) hmain]
          have h := keeps_afterFirst reach (u.setProc n { u.proc n with exitCode }) ⟨n, 1⟩
          exact ⟨h.handlers, h.signalled, h.died⟩
        · rw [mainError_later (u := u.setProc n { u.proc n with exitCode }) hmain]
          exact ⟨rfl, rfl, fun _ h => h⟩
    | signal s reach => exact absurd rfl (he s reach)
    | signalGrace reach =>
      obtain ⟨more, hmore, -⟩ := killSurvivors_spec reach u
      dsimp only
      split
      · exact ⟨hmore.handlers, hmore.signalled, fun s h => hmore.main.symm.trans h⟩
      · exact hself
    | mainGrace reach =>
      obtain ⟨more, hmore, -⟩ := killSurvivors_spec reach u
      dsimp only
      split
      · exact ⟨hmore.handlers, hmore.signalled, fun s h => absurd h (by simp [Unit.exit])⟩
      · exact hself

/-- `SIGINT` and `SIGTERM`, for which there is a handler. -/
def Signal.Handled (s : Signal) : Prop := s = .SIGINT ∨ s = .SIGTERM

/-- What the handlers and the end of the unit say about the events `es`. -/
structure Heard (es : List Event) (u : Unit) : Prop where
  handlers : ∀ s : Signal, s.Handled → s ∈ u.handlers ∨
    (1 ≤ es.countP (Event.isSignal s) ∧ u.signalled.isSome = true)
  died : ∀ s : Signal, s.Handled → u.main = .died s →
    2 ≤ es.countP (Event.isSignal s) ∧ u.signalled.isSome = true

theorem Heard.more {es : List Event} {u : Unit} (h : Heard es u) (e : Event) : Heard (es ++ [e]) u := by
  refine ⟨?_, ?_⟩
  · intro s hs
    rw [List.countP_append]
    rcases h.handlers s hs with hmem | ⟨hcount, hsome⟩
    · exact .inl hmem
    · exact .inr ⟨by omega, hsome⟩
  · intro s hs hdied
    obtain ⟨hcount, hsome⟩ := h.died s hs hdied
    rw [List.countP_append]
    exact ⟨by omega, hsome⟩

theorem onSignal_signalled (reach : Name → Reach) (s : Signal) (u : Unit) :
    (onSignal reach s u).signalled.isSome = true := by
  unfold onSignal
  split_ifs with hsome
  · exact hsome
  · obtain ⟨more, hmore, -⟩ := (shutdown_spec reach { u with signalled := some s }).signals
    show (shutdown reach { u with signalled := some s }).1.signalled.isSome = true
    rw [hmore.signalled]
    rfl

theorem heard_step {es : List Event} {u : Unit} (h : Heard es u) (e : Event) : Heard (es ++ [e]) (step u e) := by
  by_cases hsignal : ∃ s reach, e = .signal s reach
  · obtain ⟨s, reach, rfl⟩ := hsignal
    have hone : 1 ≤ List.countP (Event.isSignal s) [Event.signal s reach] := by simp [Event.isSignal]
    unfold step
    split_ifs with hended
    · exact h.more _
    · dsimp only
      split_ifs with hmem
      · obtain ⟨hmain, -, hhandlers, -⟩ := onSignal_spec reach s { u with handlers := u.handlers.erase s }
        have hsome := onSignal_signalled reach s { u with handlers := u.handlers.erase s }
        refine ⟨?_, ?_⟩
        · intro s' hs'
          rw [hhandlers, List.countP_append]
          by_cases hss : s' = s
          · subst hss
            exact .inr ⟨by omega, hsome⟩
          · rcases h.handlers s' hs' with hmem' | ⟨hcount, -⟩
            · exact .inl ((List.mem_erase_of_ne hss).mpr hmem')
            · exact .inr ⟨by omega, hsome⟩
        · intro s' hs' hdied
          rw [hmain] at hdied
          rw [show u.main = .died s' from hdied] at hended
          exact absurd rfl hended
      · refine ⟨(h.more _).handlers, ?_⟩
        rintro s' hs' ⟨⟩
        obtain ⟨hcount, hsome⟩ := (h.handlers s hs').resolve_left hmem
        rw [List.countP_append]
        exact ⟨by omega, hsome⟩
  · have hkeeps : Keeps u (step u e) := keeps_step fun s reach he => hsignal ⟨s, reach, he⟩
    refine ⟨?_, ?_⟩
    · intro s hs
      rw [hkeeps.handlers, hkeeps.signalled]
      exact (h.more e).handlers s hs
    · intro s hs hdied
      rw [hkeeps.signalled]
      exact (h.more e).died s hs (hkeeps.died s hdied)

theorem heard_run (pid : Name → Bool) (es : List Event) : Heard es (run step (started pid) es) := by
  refine run_induct (C := fun _ _ _ => True) (J := Heard) ⟨?_, fun s _ h => absurd h (by simp)⟩
    (fun pre e h _ => heard_step h e) fun _ _ _ _ => trivial
  rintro s (rfl | rfl)
  · exact .inl (by simp)
  · exact .inl (by simp)

/-! ### Signals that come early -/

section Launch

variable {before between : List Signal}

theorem foldl_arrive_ended {u : Unit} (h : u.main.alive = false) (l : List Signal) : l.foldl .arrive u = u := by
  induction l with
  | nil => rfl
  | cons s l ih =>
    have hs : u.arrive s = u := by
      unfold Unit.arrive
      rw [h, if_neg (by simp)]
    rw [List.foldl_cons, hs, ih]

/-- The signals without a handler: the process dies of the first one. -/
theorem foldl_arrive {u : Unit} (halive : u.main.alive = true) (l : List Signal) :
    (l.foldl .arrive u = u ∧ ∀ s ∈ l, s ∈ u.handlers) ∨
      ∃ s ∈ l, s ∉ u.handlers ∧ l.foldl .arrive u = { u with main := .died s } := by
  induction l with
  | nil => exact .inl ⟨rfl, by simp⟩
  | cons s l ih =>
    rw [List.foldl_cons]
    by_cases hs : s ∈ u.handlers
    · have hwaits : u.arrive s = u := by
        unfold Unit.arrive
        rw [if_neg (by simp [hs])]
      rw [hwaits]
      rcases ih with ⟨hsame, hall⟩ | ⟨s', hs', hnot, hdied⟩
      · exact .inl ⟨hsame, List.forall_mem_cons.mpr ⟨hs, hall⟩⟩
      · exact .inr ⟨s', List.mem_cons_of_mem _ hs', hnot, hdied⟩
    · have hdies : u.arrive s = { u with main := .died s } := by
        unfold Unit.arrive
        rw [if_pos ⟨halive, hs⟩]
      refine .inr ⟨s, List.mem_cons_self, hs, ?_⟩
      rw [hdies, foldl_arrive_ended rfl]

variable (before between) in
/-- The signal comes before its handler. -/
def Early (s : Signal) : Prop := s ∈ before ∨ s ∈ between ∧ s ≠ .SIGINT

/-- **The first turn of `main` goes through, or an early signal ends it with nothing sent to the children.** -/
theorem launched_cases (pid : Name → Bool) (before between : List Signal) :
    (launched pid before between = started pid ∧ ∀ s, ¬ Early before between s) ∨
      ∃ s, Early before between s ∧ (launched pid before between).main = .died s ∧
        (launched pid before between).sent = [] := by
  unfold launched
  rcases foldl_arrive (u := spawned pid) rfl before with ⟨hsame, hnone⟩ | ⟨s, hs, -, hdied⟩
  · rw [hsame]
    rcases foldl_arrive (u := (spawned pid).once .SIGINT) rfl between with ⟨hsame', hint⟩ | ⟨s, hs, hnot, hdied⟩
    · refine .inl ⟨by rw [hsame']; rfl, ?_⟩
      rintro s (hs | ⟨hs, hne⟩)
      · exact absurd (hnone s hs) (by simp [spawned])
      · exact hne (by simpa [spawned, Unit.once] using hint s hs)
    · refine .inr ⟨s, .inr ⟨hs, ?_⟩, ?_, ?_⟩
      · rintro rfl
        simp [spawned, Unit.once] at hnot
      · rw [hdied]
        rfl
      · rw [hdied]
        rfl
  · have hended : (Unit.once { spawned pid with main := .died s } .SIGINT).main.alive = false := rfl
    refine .inr ⟨s, .inl hs, ?_, ?_⟩
    · rw [hdied, foldl_arrive_ended hended]
      rfl
    · rw [hdied, foldl_arrive_ended hended]
      rfl

/-- **A signal takes the unit down without a teardown only if it comes before its handler or twice.** An early
signal always does, and no child has been sent anything; when the unit dies of a later one, that has come twice,
and every child that runs has been sent `SIGTERM`. -/
theorem taken_down (pid : Name → Bool) (before between : List Signal) (es : List Event) :
    ((∃ s, Early before between s) → ∃ s, Early before between s ∧
        (run step (launched pid before between) es).main = .died s ∧
        (run step (launched pid before between) es).sent = []) ∧
      ∀ s : Signal, s.Handled → (run step (launched pid before between) es).main = .died s →
        Early before between s ∧ (run step (launched pid before between) es).sent = [] ∨
        2 ≤ es.countP (Event.isSignal s) ∧
          ∀ n, pid n = true → (run step (launched pid before between) es).running n = true →
            (run step (launched pid before between) es).Sent n .SIGTERM := by
  rcases launched_cases pid before between with ⟨hstarted, hnone⟩ | ⟨s, hearly, hdied, hsent⟩
  · rw [hstarted]
    refine ⟨fun ⟨s, hs⟩ => absurd hs (hnone s), ?_⟩
    intro s hs hdied
    obtain ⟨hcount, hsome⟩ := (heard_run pid es).died s hs hdied
    refine .inr ⟨hcount, ?_⟩
    intro n hn hrunning
    exact (inv_run pid es).term (.inr hsome) n hrunning (((first_run pid es).1.pid n).trans hn)
  · have hended : (launched pid before between).main.alive = false := by
      rw [hdied]
      rfl
    rw [ended_run hended]
    refine ⟨fun _ => ⟨s, hearly, hdied, hsent⟩, ?_⟩
    intro s' _ hdied'
    obtain rfl : s = s' := by simpa [hdied] using hdied'
    exact .inl ⟨hearly, hsent⟩

end Launch

end Ends

/-! ## Beside installers -/

section Installers

open Release.Installer (InstallDir MvReplaces)

/-- **A unit can be started at every moment**: where installers replace the link, it finds a release that is whole
and has its dependencies, whatever they are doing and wherever some of them have stopped. -/
theorem unit_finds_release {d : InstallDir} {es : List (ℕ × Release.Installer.Action)} (pid : Name → Bool)
    (hd : d.Sound) (hcurrent : d.current.isSome = true)
    (hes : Steps Release.Installer.step MvReplaces (Release.Installer.idle d) es) :
    start (run Release.Installer.step (Release.Installer.idle d) es).store pid = started pid ∧
      ∃ c, (run Release.Installer.step (Release.Installer.idle d) es).store.current = some c ∧
        (run Release.Installer.step (Release.Installer.idle d) es).store.Ready c := by
  have hsound := Release.Installer.sound_of_guarded
    (Release.Installer.guarded_run hd (hes.imp fun _ _ _ h => h.1))
  have hsome := Release.Installer.current_stays hd hcurrent hes
  generalize (run Release.Installer.step (Release.Installer.idle d) es).store = store at *
  obtain ⟨c, hc⟩ := Option.isSome_iff_exists.mp hsome
  refine ⟨?_, c, hc, hsound c hc⟩
  unfold start
  rw [hc]
  dsimp only
  rw [if_pos (hsound c hc).has]

end Installers

namespace Sample

/-- Every signal reaches the process group. -/
def all : Name → Reach := fun _ => .group

/-- The control tunnel asks for a restart; the runtime server does not stop. -/
def restart : List Event := [.exit .control (.code 75) all]

theorem restarts : ((run step (started fun _ => true) (restart ++ [.mainGrace all])).proc .runtime).Over ∨
    ((run step (started fun _ => true) (restart ++ [.mainGrace all])).proc .runtime).killed = true ∨
    (run step (started fun _ => true) (restart ++ [.mainGrace all])).SentBoth .runtime :=
  have hexited : (run step (started fun _ => true) (restart ++ [.mainGrace all])).main = .exited 75 := by decide
  (torn_down hexited).2 .runtime rfl

theorem ends : (run step (started fun _ => true) (restart ++ [.signal .SIGTERM all, .mainGrace all])).main.alive =
    false :=
  have hmem : Event.mainGrace all ∈ [Event.signal .SIGTERM all, .mainGrace all] := by simp
  unit_exits (by decide) hmem

theorem stopped_twice : 2 ≤ [Event.signal .SIGTERM all, .signal .SIGTERM all].countP (Event.isSignal .SIGTERM) := by
  have hdied : (run step (launched (fun _ => true) [] [.SIGINT])
      [.signal .SIGTERM all, .signal .SIGTERM all]).main = .died .SIGTERM := by decide
  rcases (taken_down (fun _ => true) [] [.SIGINT] _).2 .SIGTERM (.inr rfl) hdied with ⟨hearly, -⟩ | ⟨htwice, -⟩
  · simp [Early] at hearly
  · exact htwice

theorem finds_release : start (run Release.Installer.step (Release.Installer.idle Release.Installer.Sample.dir)
    (Release.Installer.Sample.events 12)).store (fun _ => true) = started fun _ => true :=
  (unit_finds_release _ Release.Installer.Sample.sound rfl
    (Release.Installer.Sample.mv_replaces (by decide +kernel))).1

end Sample

end ConsensusNode.Node.Supervise
