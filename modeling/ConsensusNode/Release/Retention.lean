import ConsensusNode.Release.InstallerSafety

/-! # Which releases an installer leaves

`cleanup_old_releases`, as a function of the listing it starts from (`retained`), and as the installer runs it:
candidate by candidate, while other installers wait for the lock.

* `length_retained_le`, `newest_retained`, `protected_retained`: how many releases stay, and which.
* `cleaned_run`: what has been done about the candidates so far, over all runs.
* `releases_retained`: what an installer that reports success has left. -/

namespace ConsensusNode.Release.Installer

open Js Lib.LockedSection Lib.Run

/-! ## The loop as a function -/

section Retained

variable {limit : Option ℤ} {protects : JsString → Bool} {kept : ℕ} {l : List JsString} {c : JsString}

/-- The candidates that stay, when `kept` of them have been counted already. -/
def retained (limit : Option ℤ) (protects : JsString → Bool) : ℕ → List JsString → List JsString
  | _, [] => []
  | kept, c :: rest =>
    if protects c || below kept limit then c :: retained limit protects (kept + 1) rest
    else retained limit protects kept rest

/-- `release_retention` as a number of releases. -/
def Keep (limit : Option ℤ) : ℕ := (limit.getD 0).toNat

theorem below_iff : below kept limit = true ↔ kept < Keep limit := by
  unfold below Keep
  rcases limit with _ | n
  · simp
  · simp only [decide_eq_true_eq, Option.getD_some]
    omega

theorem retained_keep (h : (protects c || below kept limit) = true) (rest : List JsString) :
    retained limit protects kept (c :: rest) = c :: retained limit protects (kept + 1) rest := by
  rw [retained, if_pos h]

theorem retained_drop (h : (protects c || below kept limit) = false) (rest : List JsString) :
    retained limit protects kept (c :: rest) = retained limit protects kept rest := by
  rw [retained, h]
  rfl

theorem retained_sublist : (retained limit protects kept l).Sublist l := by
  induction l generalizing kept with
  | nil => exact .slnil
  | cons c rest ih =>
    rcases h : protects c || below kept limit with _ | _
    · rw [retained_drop h]
      exact ih.cons c
    · rw [retained_keep h]
      exact ih.cons_cons c

theorem protected_retained (hc : c ∈ l) (h : protects c = true) : c ∈ retained limit protects kept l := by
  induction l generalizing kept with
  | nil => cases hc
  | cons x rest ih =>
    rcases hx : protects x || below kept limit with _ | _
    · rw [retained_drop hx]
      rcases List.mem_cons.mp hc with rfl | hc
      · rw [h] at hx
        cases hx
      · exact ih hc
    · rw [retained_keep hx]
      rcases List.mem_cons.mp hc with rfl | hc
      · exact List.mem_cons_self
      · exact List.mem_cons_of_mem _ (ih hc)

/-- The first ones of the listing stay. -/
theorem newest_retained {n : ℕ} (hn : kept + n ≤ Keep limit) (hc : c ∈ l.take n) :
    c ∈ retained limit protects kept l := by
  induction l generalizing kept n with
  | nil =>
    rw [List.take_nil] at hc
    cases hc
  | cons x rest ih =>
    rcases n with _ | n
    · rw [List.take_zero] at hc
      cases hc
    · have hbelow : below kept limit = true := below_iff.mpr (by omega)
      rw [retained_keep (by rw [hbelow, Bool.or_true])]
      rw [List.take_succ_cons] at hc
      rcases List.mem_cons.mp hc with rfl | hc
      · exact List.mem_cons_self
      · exact List.mem_cons_of_mem _ (ih (by omega) hc)

theorem length_retained_le :
    kept + (retained limit protects kept l).length ≤ max kept (Keep limit) + (l.filter protects).length := by
  induction l generalizing kept with
  | nil => simp [retained]
  | cons x rest ih =>
    rcases hx : protects x || below kept limit with _ | _
    · obtain ⟨hprotects, -⟩ : protects x = false ∧ below kept limit = false := by simpa using hx
      rw [retained_drop hx, List.filter_cons_of_neg (by simp [hprotects])]
      exact ih
    · have hrest : kept + 1 + (retained limit protects (kept + 1) rest).length ≤
          max (kept + 1) (Keep limit) + (rest.filter protects).length := ih
      rw [retained_keep hx, List.length_cons]
      rcases hprotects : protects x with _ | _
      · have hbelow : kept < Keep limit := by
          rw [hprotects, Bool.false_or] at hx
          exact below_iff.mp hx
        rw [List.filter_cons_of_neg (by simp [hprotects])]
        omega
      · rw [List.filter_cons_of_pos hprotects, List.length_cons]
        omega

/-- Two releases are protected. -/
theorem length_protects_le (p : Proc) (hl : l.Nodup) : (l.filter p.protects).length ≤ 2 := by
  have hsub : l.filter p.protects ⊆ [p.current_real, p.env.running_release.getD []] := by
    intro c hc
    have hprotects : p.protects c = true := (List.mem_filter.mp hc).2
    rcases hrunning : p.env.running_release with _ | r
    · simp [Proc.protects, hrunning] at hprotects
      simp [hprotects]
    · simp [Proc.protects, hrunning] at hprotects
      rcases hprotects with rfl | rfl
      · simp
      · simp
  exact (hl.filter _).length_le_of_subset hsub

theorem nodup_listing (m : OrdMap JsString ReleaseDir) : (listing m).Nodup := by
  unfold listing
  refine ((List.perm_insertionSort _ _).map Prod.fst).nodup_iff.mpr ?_
  exact m.nodup.sublist (List.filter_sublist.map _)

theorem has_of_mem_listing {m : OrdMap JsString ReleaseDir} (h : c ∈ listing m) : m.has c = true := by
  unfold listing at h
  obtain ⟨e, he, rfl⟩ := List.mem_map.mp h
  have hmem : e ∈ m.entries := (List.mem_filter.mp ((List.perm_insertionSort _ _).mem_iff.mp he)).1
  exact OrdMap.has_iff.mpr (List.mem_map_of_mem hmem)

end Retained

/-! ## The loop as it runs -/

section Cleaning

/-- What stays of the releases that the loop has seen in `d₀`. -/
def Proc.keeps (p : Proc) (kept : ℕ) (l : List JsString) : List JsString :=
  retained (arith p.env.release_retention) p.protects kept l

/-- In `d` the candidates `done` of `d₀` have been gone through, and those of `stay` are left. -/
structure Left (d₀ d : InstallDir) (done stay : List JsString) : Prop where
  sub : stay ⊆ done
  has : ∀ id, d.releases.has id = true ↔ d₀.releases.has id = true ∧ (id ∈ done → id ∈ stay)

variable {p₀ p : Proc} {d₀ d : InstallDir} {v : Seen} {said : Said}

theorem Left.nil (d : InstallDir) : Left d d [] [] :=
  ⟨fun _ h => h, fun _ => ⟨fun h => ⟨h, fun hid => by cases hid⟩, fun h => h.1⟩⟩

/-- The next candidate stays. -/
theorem Left.keep {done stay : List JsString} {c : JsString} (h : Left d₀ d done stay) (hc : c ∉ done) :
    Left d₀ d (done ++ [c]) (stay ++ [c]) := by
  refine ⟨List.append_subset.mpr ⟨fun id hid => List.mem_append_left _ (h.sub hid), List.subset_append_right _ _⟩, ?_⟩
  intro id
  rw [h.has id]
  refine and_congr_right fun _ => ?_
  by_cases hid : id = c
  · subst hid
    simp [hc]
  · simp [hid]

/-- The next candidate goes. -/
theorem Left.remove {done stay : List JsString} {c : JsString} (h : Left d₀ d done stay) (hc : c ∉ done) :
    Left d₀ { d with releases := d.releases.delete c } (done ++ [c]) stay := by
  have hstay : c ∉ stay := fun hmem => hc (h.sub hmem)
  refine ⟨fun id hid => List.mem_append_left _ (h.sub hid), ?_⟩
  intro id
  show (d.releases.delete c).has id = true ↔ _
  rw [OrdMap.has_delete_iff, h.has id]
  by_cases hid : id = c
  · subst hid
    simp [hstay]
  · simp [hid]

/-- The next candidate is being removed. -/
theorem Left.touch {done stay : List JsString} {c : JsString} {f : ReleaseDir → ReleaseDir}
    (h : Left d₀ d done stay) : Left d₀ (d.touch c f) done stay := by
  refine ⟨h.sub, ?_⟩
  intro id
  rw [← h.has id]
  have hsome : (d.touch c f).releases.has id = d.releases.has id := by
    unfold OrdMap.has
    rw [get?_touch]
    split_ifs with hid
    · rw [hid, Option.isSome_map]
    · rfl
  rw [hsome]

theorem not_mem_done {done rest : List JsString} {c : JsString} (h : listing d.releases = done ++ c :: rest) :
    c ∉ done := by
  have hnodup := nodup_listing d.releases
  rw [h, List.nodup_append] at hnodup
  intro hc
  exact hnodup.2.2 c hc c List.mem_cons_self rfl

/-- Where the installer `p` is, that was about to list the releases of `d₀` as `p₀`. -/
def Cleaning (p₀ : Proc) (d₀ : InstallDir) (p : Proc) (d : InstallDir) : Prop :=
  p.env = p₀.env ∧ p.current_real = p₀.current_real ∧
  match p.phase with
  | .list => d = d₀
  | .cleanup rest => ∃ done stay, listing d₀.releases = done ++ rest ∧
      p₀.keeps 0 (listing d₀.releases) = stay ++ p₀.keeps p.kept rest ∧ Left d₀ d done stay
  | .remove c rest => ∃ done stay, listing d₀.releases = done ++ c :: rest ∧
      p₀.keeps 0 (listing d₀.releases) = stay ++ p₀.keeps p.kept rest ∧ Left d₀ d done stay
  | .trapTmp true code | .trapLock code =>
      code = 0 → Left d₀ d (listing d₀.releases) (p₀.keeps 0 (listing d₀.releases))
  | .exited _ | .killed => True
  | _ => False

theorem Proc.keeps_eq (henv : p.env = p₀.env) (hreal : p.current_real = p₀.current_real) (c : JsString) :
    (p.protects c || below p.kept (arith p.env.release_retention)) =
      (p₀.protects c || below p.kept (arith p₀.env.release_retention)) := by
  unfold Proc.protects
  rw [henv, hreal]

theorem cleaning_exit {code : ℕ} (henv : v.proc.env = p₀.env) (hreal : v.proc.current_real = p₀.current_real)
    (hph : v.proc.phase.lock_acquired = true)
    (h : code = 0 → Left d₀ v.store (listing d₀.releases) (p₀.keeps 0 (listing d₀.releases))) :
    Cleaning p₀ d₀ (exit v code).proc (exit v code).store := by
  have hexit : exit v code = goto v (.trapTmp true code) := by
    unfold exit
    rw [hph]
  rw [hexit]
  exact ⟨henv, hreal, h⟩

theorem cleaning_orExit {next : Seen} (henv : v.proc.env = p₀.env)
    (hreal : v.proc.current_real = p₀.current_real) (hph : v.proc.phase.lock_acquired = true)
    (h : Cleaning p₀ d₀ next.proc next.store) :
    Cleaning p₀ d₀ (orExit said v next).proc (orExit said v next).store := by
  unfold orExit
  split
  · exact h
  · rename_i hstatus
    exact cleaning_exit henv hreal hph fun h0 => absurd h0 hstatus

/-- Candidate by candidate, the loop does what `retained` says. -/
theorem cleaning_candidate {c : JsString} {rest done stay : List JsString} (henv : v.proc.env = p₀.env)
    (hreal : v.proc.current_real = p₀.current_real) (hph : v.proc.phase.lock_acquired = true)
    (hlist : listing d₀.releases = done ++ c :: rest)
    (hkeeps : p₀.keeps 0 (listing d₀.releases) = stay ++ p₀.keeps v.proc.kept (c :: rest))
    (hleft : Left d₀ v.store done stay) :
    Cleaning p₀ d₀ (cleanupCandidate said v c rest).proc (cleanupCandidate said v c rest).store := by
  have hdone : c ∉ done := not_mem_done hlist
  have hhas : v.store.releases.has c = true :=
    (hleft.has c).mpr ⟨has_of_mem_listing (by rw [hlist]; simp), fun hc => absurd hc hdone⟩
  unfold cleanupCandidate
  rw [if_pos hhas, Proc.keeps_eq henv hreal]
  refine cleaning_orExit henv hreal hph ?_
  split_ifs with hkeep
  · refine ⟨henv, hreal, done ++ [c], stay ++ [c], ?_, ?_, hleft.keep hdone⟩
    · rw [hlist]
      simp
    · rw [hkeeps]
      unfold Proc.keeps
      rw [retained_keep hkeep, List.append_assoc]
      rfl
  · refine ⟨henv, hreal, done, stay, hlist, ?_, hleft.touch⟩
    rw [hkeeps]
    unfold Proc.keeps
    rw [retained_drop (by simpa using hkeep)]
    rfl

/-- **One command keeps the account of the candidates.** -/
theorem cleaning_script (pid : ℕ) (h : Cleaning p₀ d₀ v.proc v.store) :
    Cleaning p₀ d₀ (script pid said v).proc (script pid said v).store := by
  obtain ⟨henv, hreal, h⟩ := h
  unfold script
  dsimp only
  cases hph : v.proc.phase <;> rw [hph] at h
  case list =>
    obtain rfl : v.store = d₀ := h
    exact ⟨henv, hreal, [], [], rfl, rfl, .nil _⟩
  case cleanup candidates =>
    obtain ⟨done, stay, hlist, hkeeps, hleft⟩ := h
    rcases candidates with _ | ⟨c, rest⟩
    · refine cleaning_exit henv hreal (by rw [hph]; rfl) fun _ => ?_
      have hdone : listing d₀.releases = done := by rw [hlist, List.append_nil]
      have hstay : p₀.keeps 0 (listing d₀.releases) = stay := by
        rw [hkeeps]
        simp [Proc.keeps, retained]
      rw [hstay, hdone]
      exact hleft
    · exact cleaning_candidate henv hreal (by rw [hph]; rfl) hlist hkeeps hleft
  case remove c rest =>
    obtain ⟨done, stay, hlist, hkeeps, hleft⟩ := h
    refine cleaning_orExit henv hreal (by rw [hph]; rfl)
      ⟨henv, hreal, done ++ [c], stay, ?_, hkeeps, hleft.remove (not_mem_done hlist)⟩
    rw [hlist]
    simp
  case trapTmp acquired code =>
    rcases acquired with _ | _
    · exact h.elim
    · dsimp only
      split_ifs with hfail htrue
      · exact ⟨henv, hreal, trivial⟩
      · exact ⟨henv, hreal, h⟩
      · exact absurd rfl htrue
  case trapLock code => exact ⟨henv, hreal, trivial⟩
  case exited code => exact ⟨henv, hreal, by rw [hph]; trivial⟩
  case killed => exact ⟨henv, hreal, by rw [hph]; trivial⟩
  all_goals exact h.elim

theorem cleaning_command (pid : ℕ) (h : Cleaning p₀ d₀ v.proc v.store) :
    Cleaning p₀ d₀ (command pid said v).proc (command pid said v).store := by
  unfold command
  split_ifs
  · exact cleaning_script pid h
  · exact ⟨h.1, h.2.1, trivial⟩

theorem cleaning_term (sig : ℕ) (h : Cleaning p₀ d₀ v.proc v.store) :
    Cleaning p₀ d₀ (term sig v).proc (term sig v).store := by
  unfold term
  split_ifs
  · obtain ⟨henv, hreal, h'⟩ := h
    have hcode : 128 + sig = 0 → Left d₀ v.store (listing d₀.releases) (p₀.keeps 0 (listing d₀.releases)) :=
      fun h0 => absurd h0 (by omega)
    cases hph : v.proc.phase <;> rw [hph] at h'
    case list => exact cleaning_exit henv hreal (by rw [hph]; rfl) hcode
    case cleanup candidates => exact cleaning_exit henv hreal (by rw [hph]; rfl) hcode
    case remove c rest => exact cleaning_exit henv hreal (by rw [hph]; rfl) hcode
    case trapTmp acquired code => exact ⟨henv, hreal, trivial⟩
    case trapLock code => exact ⟨henv, hreal, trivial⟩
    case exited code => exact ⟨henv, hreal, by rw [hph]; trivial⟩
    case killed => exact ⟨henv, hreal, by rw [hph]; trivial⟩
    all_goals exact h'.elim
  · exact h

theorem cleaning_kill (h : Cleaning p₀ d₀ v.proc v.store) : Cleaning p₀ d₀ (kill v).proc (kill v).store := by
  unfold kill
  split
  · exact h
  · exact ⟨h.1, h.2.1, h.2.2⟩

/-- An installer that is at work on the candidates holds the lock; one that has ended does nothing more. -/
theorem Cleaning.inside (h : Cleaning p₀ d₀ p d) : p.phase.inside = true ∨ ∀ d', Cleaning p₀ d₀ p d' := by
  obtain ⟨henv, hreal, h⟩ := h
  cases hph : p.phase <;> rw [hph] at h
  case trapTmp acquired code =>
    rcases acquired with _ | _
    · exact h.elim
    · exact .inl rfl
  case exited code => exact .inr fun _ => ⟨henv, hreal, by rw [hph]; trivial⟩
  case killed => exact .inr fun _ => ⟨henv, hreal, by rw [hph]; trivial⟩
  all_goals first | exact .inl rfl | exact h.elim

/-! ### Over runs -/

variable {t : World} {es : List (ℕ × Action)} {pid : ℕ}

/-- New names, and the process is not launched again. -/
def NotAgain (pid : ℕ) (pre : List (ℕ × Action)) (t : World) (e : ℕ × Action) : Prop :=
  NamesFresh pre t e ∧ (e.1 = pid → ∀ env, e.2 ≠ .launch env)

/-- **What the loop has done so far**, wherever the other installers are. -/
theorem cleaned_run (ht : Guarded Holds InstallDir.Sound InstallDir.Sound Own t) (hp : t.procs pid = some p₀)
    (hph : p₀.phase = .list) (hes : Steps step (NotAgain pid) t es) :
    Guarded Holds InstallDir.Sound InstallDir.Sound Own (run step t es) ∧
      ∃ p, (run step t es).procs pid = some p ∧ Cleaning p₀ t.store p (run step t es).store := by
  refine run_induct (J := fun _ t' => Guarded Holds InstallDir.Sound InstallDir.Sound Own t' ∧
    ∃ p, t'.procs pid = some p ∧ Cleaning p₀ t.store p t'.store) ⟨ht, p₀, hp, rfl, rfl, by rw [hph]⟩ ?_ hes
  rintro pre e ⟨hguarded, p, hp, hcleaning⟩ ⟨hfresh, hlaunch⟩
  generalize run step t pre = t' at *
  have hkind := kind_act e.1 e.2 (t'.view e.1)
  refine ⟨hguarded.put (disciplined_acts _) protects_acts ⟨hfresh, e.1, e.2, rfl⟩, ?_⟩
  by_cases hpid : pid = e.1
  · subst hpid
    rw [step_self]
    have hself : ∀ q, (t'.view e.1).proc = some q → q = p := fun q hq => Option.some.inj (hq.symm.trans hp)
    refine act_induct (P := fun w => ∃ p, w.proc = some p ∧ Cleaning p₀ t.store p w.store) ⟨p, hp, hcleaning⟩
      ?_ ?_ ?_ ?_
    · exact fun env _ he => absurd he (hlaunch rfl env)
    · intro q said hq _
      obtain rfl := hself q hq
      exact ⟨_, rfl, cleaning_command e.1 hcleaning⟩
    · intro q sig hq
      obtain rfl := hself q hq
      exact ⟨_, rfl, cleaning_term sig hcleaning⟩
    · intro q hq
      obtain rfl := hself q hq
      exact ⟨_, rfl, cleaning_kill hcleaning⟩
  · refine ⟨p, ?_, ?_⟩
    · rw [step_ne hpid]
      exact hp
    · rcases hcleaning.inside with hin | hall
      · have hout : ¬ Holds (t'.procs e.1) := fun h =>
          hpid (hguarded.exclusive.one pid e.1 ⟨p, hp, hin⟩ h)
        rw [show (step t' e).store = t'.store from hkind.store_eq hout]
        exact hcleaning
      · exact hall _

/-- **What an installer that reports success has left.** From the listing on: of the releases that were listed,
those that `retained` names are left, and of the others all. The current release, the one the installer was
started in and the newest ones, as many as `release_retention` says, are among them; two more at most stay. -/
theorem releases_retained {es₀ : List (ℕ × Action)} {d : InstallDir} {e : ℕ × Action} {p : Proc} (hd : d.Sound)
    (hes₀ : Steps step NamesFresh (idle d) es₀) (hp₀ : (run step (idle d) es₀).procs e.1 = some p₀)
    (hph : p₀.phase = .list) (hes : Steps step (NotAgain e.1) (run step (idle d) es₀) es)
    (hp : Succeeds (run step (run step (idle d) es₀) es) e p) :
    ∃ stay, stay.Sublist (listing (run step (idle d) es₀).store.releases) ∧
      (∀ id, (step (run step (run step (idle d) es₀) es) e).store.releases.has id = true ↔
        (run step (idle d) es₀).store.releases.has id = true ∧
          (id ∈ listing (run step (idle d) es₀).store.releases → id ∈ stay)) ∧
      (∀ id ∈ listing (run step (idle d) es₀).store.releases, p₀.protects id = true → id ∈ stay) ∧
      (listing (run step (idle d) es₀).store.releases).take (Keep (arith p₀.env.release_retention)) ⊆ stay ∧
      stay.length ≤ Keep (arith p₀.env.release_retention) + 2 := by
  have hquit := allQuit_run (allQuit_idle d) es₀
  have hguarded := guarded_run hd hes₀
  generalize run step (idle d) es₀ = t at *
  obtain ⟨q, hq, hqph, -, -, hstore⟩ := hp.trapLock (allQuit_run hquit es)
  obtain ⟨-, p', hp', -, -, hcleaned⟩ := cleaned_run hguarded hp₀ hph hes
  obtain rfl : p' = q := Option.some.inj (hp'.symm.trans hq)
  rw [hqph] at hcleaned
  have hleft : Left t.store (run step t es).store (listing t.store.releases) _ := hcleaned rfl
  have hlength : 0 + (p₀.keeps 0 (listing t.store.releases)).length ≤
      max 0 (Keep (arith p₀.env.release_retention)) + ((listing t.store.releases).filter p₀.protects).length :=
    length_retained_le
  have htwo := length_protects_le p₀ (nodup_listing t.store.releases)
  refine ⟨p₀.keeps 0 (listing t.store.releases), retained_sublist, ?_, ?_, ?_, ?_⟩
  · rw [hstore]
    exact hleft.has
  · intro id hid hprotects
    exact protected_retained hid hprotects
  · intro id hid
    exact newest_retained (by omega) hid
  · omega

end Cleaning

namespace Sample

/-- The update at its listing. -/
def atList : Proc := { last with phase := .list, kept := 0 }

theorem not_again {t : World} {n : ℕ} (h : Steps step NamesFresh t (List.replicate n (7, .command said))) :
    Steps step (NotAgain 7) t (List.replicate n (7, .command said)) := by
  intro pre e post he
  refine ⟨h pre e post he, ?_⟩
  intro _ env' hlaunch
  have hmem : e ∈ List.replicate n (7, Action.command said) := by rw [he]; simp
  rw [List.eq_of_mem_replicate hmem] at hlaunch
  cases hlaunch

/-- The update has reported success. -/
def afterUpdate : InstallDir :=
  (step (run step (run step (idle dir) (events 16)) (List.replicate 7 (7, .command said))) (7, .command said)).store

theorem update_leaves : afterUpdate.releases.has (js "1.0.0") = true ∧
    afterUpdate.releases.has (js "2.0.0-20260101000000-7") = true := by
  have hlast : (run step (run step (idle dir) (events 16)) (List.replicate 7 (7, .command said))).procs 7 =
      some last := by decide +kernel
  have hsucceeds : Succeeds (run step (run step (idle dir) (events 16)) (List.replicate 7 (7, .command said)))
      (7, .command said) { last with phase := .exited 0 } := by
    refine ⟨?_, by decide +kernel, rfl⟩
    intro q hq
    rw [hlast] at hq
    cases hq
    simp [last]
  have hlist : (run step (idle dir) (events 16)).procs 7 = some atList := by decide +kernel
  obtain ⟨stay, -, hleft, hprotects, -, -⟩ := releases_retained sound (by decide +kernel) hlist rfl
    (not_again (by decide +kernel)) hsucceeds
  refine ⟨(hleft _).mpr ⟨by decide +kernel, ?_⟩, (hleft _).mpr ⟨by decide +kernel, ?_⟩⟩
  · exact fun hid => hprotects _ hid (by decide +kernel)
  · exact fun hid => hprotects _ hid (by decide +kernel)

end Sample

end ConsensusNode.Release.Installer
