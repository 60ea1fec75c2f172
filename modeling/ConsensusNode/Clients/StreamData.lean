import ConsensusNode.Clients.ControlStreams

/-! # What is executed as a proxy request

`handleData` runs as a proxy request what belongs to no owner, link, raw socket or data-plane session.

* `kept_or_opened`: what a step does to a stream that is active after it.
* `Placed`: an active stream is an open proxy session, has been opened as an owner stream or as a raw tunnel
  without a socket, or is in one of the maps.
* `executed_only_open`: in a run in which data arrives for active streams only (for an owner stream only while it
  is the stream of its tunnel, and for no raw tunnel without a socket), everything that is executed came on an
  open proxy session.

Data of a stream that has ended, that never was, or whose socket could not be made, is executed too. -/

namespace ConsensusNode.Clients

open Js Lib.Run

variable (p : Platform)

/-- The stream was opened as a proxy session and no `STREAM_CLOSE` for it came since. -/
def OpenSession (pre : List ControlEvent) (id : JsString) : Prop :=
  ∃ a b, pre = a ++ .streamOpen id (some (js "proxy-session")) :: b ∧ .streamClose id ∉ b

/-- The event opens the stream with a target of this kind. -/
def opensWith (q : StreamTarget → Bool) (id : JsString) : ControlEvent → Bool
  | .streamOpen id' target => decide (id' = id) && (parseStreamTarget p target).any q
  | _ => false

/-- The stream was opened with a target of this kind. -/
def OpenedWith (q : StreamTarget → Bool) (pre : List ControlEvent) (id : JsString) : Prop :=
  ∃ e ∈ pre, opensWith p q id e = true

instance (q : StreamTarget → Bool) (pre : List ControlEvent) (id : JsString) :
    Decidable (OpenedWith p q pre id) := by
  unfold OpenedWith
  infer_instance

def StreamTarget.isOwner : StreamTarget → Bool
  | publicTunnelOwner _ => true
  | _ => false

/-- `net.createConnection` throws for this target. -/
def StreamTarget.unconnected : StreamTarget → Bool
  | rawTunnel host port => !(p.createConnection host port).isOk
  | _ => false

/-- The stream was opened as the owner of a public tunnel. -/
abbrev OpenedAsOwner (pre : List ControlEvent) (id : JsString) : Prop := OpenedWith p StreamTarget.isOwner pre id

/-- The stream was opened as a raw tunnel that has no socket. -/
abbrev OpenedUnconnected (pre : List ControlEvent) (id : JsString) : Prop :=
  OpenedWith p (StreamTarget.unconnected p) pre id

theorem opensWith_open {q : StreamTarget → Bool} {id : JsString} {target : Option JsString} {t : StreamTarget}
    (ht : parseStreamTarget p target = some t) (hq : q t = true) :
    opensWith p q id (.streamOpen id target) = true := by
  have hany : (parseStreamTarget p target).any q = true := by
    rw [ht]
    exact hq
  exact Bool.and_eq_true_iff.mpr ⟨decide_eq_true rfl, hany⟩

variable {p} in
theorem OpenedWith.target {q : StreamTarget → Bool} {pre : List ControlEvent} {id : JsString}
    (h : OpenedWith p q pre id) :
    ∃ target t, .streamOpen id target ∈ pre ∧ parseStreamTarget p target = some t ∧ q t = true := by
  obtain ⟨e, he, hopens⟩ := h
  unfold opensWith at hopens
  split at hopens
  · rename_i id' target
    obtain ⟨hid, hany⟩ := Bool.and_eq_true_iff.mp hopens
    obtain ⟨t, ht, hq⟩ := (Option.any_eq_true _ _).mp hany
    exact ⟨target, t, of_decide_eq_true hid ▸ he, ht, hq⟩
  · cases hopens

/-- The stream is in a map that `handleData` looks at. -/
def ControlState.Mapped (s : ControlState) (id : JsString) : Prop :=
  s.publicTunnelStreams.has id = true ∨ s.rawStreams.has id = true ∨ s.dataPlaneStreams.has id = true

/-- The target of a stream that comes into none of these maps. -/
def OpensUnmapped (target : Option JsString) : Prop :=
  target = some (js "proxy-session") ∨
    ∃ t, parseStreamTarget p target = some t ∧ (t.isOwner = true ∨ t.unconnected p = true)

/-- The places of an active stream. -/
def Placed (pre : List ControlEvent) (s : ControlState) : Prop :=
  ∀ id, s.activeStreams.has id = true →
    OpenSession pre id ∨ OpenedAsOwner p pre id ∨ OpenedUnconnected p pre id ∨ s.Mapped id

/-! ### One step -/

/-- `x` is active after the step, was active before it, and is in the maps it was in. -/
structure Kept (s s' : ControlState) (x : JsString) : Prop where
  active : s.activeStreams.has x = true
  link : s.publicTunnelStreams.has x = true → s'.publicTunnelStreams.has x = true
  raw : s.rawStreams.has x = true → s'.rawStreams.has x = true
  dataPlane : s.dataPlaneStreams.has x = true → s'.dataPlaneStreams.has x = true

section Step

variable {s : ControlState} {x : JsString}

theorem Kept.refl (h : s.activeStreams.has x = true) : Kept s s x := ⟨h, id, id, id⟩

theorem Kept.mapped {s' : ControlState} (h : Kept s s' x) (hm : s.Mapped x) : s'.Mapped x := by
  rcases hm with hm | hm | hm
  · exact .inl (h.link hm)
  · exact .inr (.inl (h.raw hm))
  · exact .inr (.inr (h.dataPlane hm))

theorem kept_cleanup {sid : JsString} :
    (s.cleanupPublicTunnelStream sid).activeStreams.has x = true →
      Kept s (s.cleanupPublicTunnelStream sid) x ∧ (s.publicTunnelStreams.has sid = true → x ≠ sid) := by
  unfold ControlState.cleanupPublicTunnelStream
  split
  · rename_i hnone
    refine fun h => ⟨.refl h, fun hhas => ?_⟩
    unfold OrdMap.has at hhas
    rw [hnone] at hhas
    cases hhas
  · intro h
    obtain ⟨hne, hactive⟩ := OrdMap.has_delete_iff.mp h
    exact ⟨⟨hactive, fun hl => OrdMap.has_delete_iff.mpr ⟨hne, hl⟩, id, id⟩, fun _ => hne⟩

theorem kept_ownerFrame {o : TunnelOwner} {f : DecodedFrame} :
    (s.handleOwnerFrame o f).1.activeStreams.has x = true → Kept s (s.handleOwnerFrame o f).1 x := by
  unfold ControlState.handleOwnerFrame
  split
  · exact .refl
  split
  · exact .refl
  split
  · exact .refl
  · exact .refl
  · split
    · exact .refl
    split
    · exact fun h => (kept_cleanup h).1
    split
    · exact fun h => (kept_cleanup h).1
    · exact .refl

theorem kept_data {id data : JsString} :
    (s.handleData id data).1.activeStreams.has x = true → Kept s (s.handleData id data).1 x := by
  unfold ControlState.handleData
  split
  · split
    · exact kept_ownerFrame
    · exact .refl
  · split
    · split
      · exact fun h => (kept_cleanup h).1
      · exact .refl
    · split
      · exact .refl
      split
      · exact .refl
      · exact fun h => ⟨h, fun h => h, fun h => h, fun h => h⟩

/-- A stream that is still active after its own close is still linked: the close has failed. -/
theorem kept_close {id : JsString} :
    (s.handleClose id).1.activeStreams.has x = true → Kept s (s.handleClose id).1 x ∧
      (x = id → (s.handleClose id).1.publicTunnelStreams.has x = true) := by
  unfold ControlState.handleClose
  split
  · rename_i T o _
    intro h
    obtain ⟨hne, hactive⟩ := OrdMap.has_delete_iff.mp h
    obtain ⟨hq, hactive⟩ := (OrdMap.has_filter_iff (q := fun k => !o.serverToOwner.keys.contains k)).mp
      hactive
    refine ⟨⟨hactive, fun hl => ?_, fun hr => hr, fun hd => hd⟩, fun hx => absurd hx hne⟩
    exact (OrdMap.has_filter_iff (q := fun k => !o.serverToOwner.keys.contains k)).mpr ⟨hq, hl⟩
  · split
    · rename_i l hl
      have hhas : s.publicTunnelStreams.has id = true := by
        unfold OrdMap.has
        rw [hl]
        rfl
      split
      · intro h
        have hk := kept_cleanup h
        exact ⟨hk.1, fun hx => absurd hx (hk.2 hhas)⟩
      · split
        · exact fun h => ⟨.refl h, fun hx => hx ▸ hhas⟩
        · intro h
          have hk := kept_cleanup h
          exact ⟨hk.1, fun hx => absurd hx (hk.2 hhas)⟩
    · split
      · intro h
        obtain ⟨hne, hactive⟩ := OrdMap.has_delete_iff.mp h
        exact ⟨⟨hactive, fun hl => hl, fun hr => hr, fun hd => OrdMap.has_delete_iff.mpr ⟨hne, hd⟩⟩,
          fun hx => absurd hx hne⟩
      · intro h
        obtain ⟨hne, hactive⟩ := OrdMap.has_delete_iff.mp h
        exact ⟨⟨hactive, fun hl => hl, fun hr => OrdMap.has_delete_iff.mpr ⟨hne, hr⟩, fun hd => hd⟩,
          fun hx => absurd hx hne⟩

variable {p}

theorem kept_or_opened_open {id : JsString} {target : Option JsString} :
    (s.handleOpen p id target).1.activeStreams.has x = true →
      Kept s (s.handleOpen p id target).1 x ∨
        x = id ∧ (OpensUnmapped p target ∨ (s.handleOpen p id target).1.Mapped x) := by
  unfold ControlState.handleOpen
  dsimp only
  split
  · rename_i htarget
    intro h
    rcases OrdMap.has_set_iff.mp h with rfl | h
    · exact .inr ⟨rfl, .inl (.inl htarget)⟩
    · exact .inl ⟨h, fun h => h, fun h => h, fun h => h⟩
  · split
    · rename_i t ht
      intro h
      rcases OrdMap.has_set_iff.mp h with rfl | h
      · exact .inr ⟨rfl, .inl (.inr ⟨_, ht, .inl rfl⟩)⟩
      · exact .inl ⟨h, fun h => h, fun h => h, fun h => h⟩
    · unfold ControlState.openPublicStream
      split
      · exact fun h => .inl ⟨h, fun h => h, fun h => h, fun h => h⟩
      · intro h
        rcases OrdMap.has_set_iff.mp h with rfl | h
        · exact .inr ⟨rfl, .inr (.inl (OrdMap.has_set_iff.mpr (.inl rfl)))⟩
        · exact .inl ⟨h, fun h => OrdMap.has_set_iff.mpr (.inr h), fun h => h, fun h => h⟩
    · intro h
      rcases OrdMap.has_set_iff.mp h with rfl | h
      · exact .inr ⟨rfl, .inr (.inr (.inr (OrdMap.has_set_iff.mpr (.inl rfl))))⟩
      · exact .inl ⟨h, fun h => h, fun h => h, fun h => OrdMap.has_set_iff.mpr (.inr h)⟩
    · exact fun h => .inl ⟨h, fun h => h, fun h => h, fun h => h⟩
    · rename_i host port ht
      split
      · rename_i err herr
        -- the stream is active already when the exception comes
        have hthrows : (StreamTarget.rawTunnel host port).unconnected p = true := by
          show (!(p.createConnection host port).isOk) = true
          rw [herr]
          rfl
        intro h
        rcases OrdMap.has_set_iff.mp h with rfl | h
        · exact .inr ⟨rfl, .inl (.inr ⟨_, ht, .inr hthrows⟩)⟩
        · exact .inl ⟨h, fun h => h, fun h => h, fun h => h⟩
      · intro h
        rcases OrdMap.has_set_iff.mp h with rfl | h
        · exact .inr ⟨rfl, .inr (.inr (.inl (OrdMap.has_set_iff.mpr (.inl rfl))))⟩
        · exact .inl ⟨h, fun h => h, fun h => OrdMap.has_set_iff.mpr (.inr h), fun h => h⟩

/-- **What a step does to a stream that is active after it.** -/
theorem kept_or_opened {e : ControlEvent} (h : (s.step p e).activeStreams.has x = true) :
    (Kept s (s.step p e) x ∧ (e = .streamClose x → (s.step p e).Mapped x)) ∨
      ∃ target, e = .streamOpen x target ∧ (OpensUnmapped p target ∨ (s.step p e).Mapped x) := by
  unfold ControlState.step ControlState.handle at *
  cases e with
  | streamOpen id target =>
    rcases kept_or_opened_open h with hk | ⟨rfl, hk⟩
    · exact .inl ⟨hk, fun he => by cases he⟩
    · exact .inr ⟨target, rfl, hk⟩
  | streamData id data => exact .inl ⟨kept_data h, fun he => by cases he⟩
  | streamClose id =>
    obtain ⟨hk, hself⟩ := kept_close h
    refine .inl ⟨hk, fun he => ?_⟩
    cases he
    exact .inl (hself rfl)
  | socketData id data => exact .inl ⟨.refl h, fun he => by cases he⟩
  | socketClosed id =>
    revert h
    dsimp only
    split
    · intro h
      obtain ⟨hne, hactive⟩ := OrdMap.has_delete_iff.mp h
      exact .inl ⟨⟨hactive, fun hl => hl, fun hr => OrdMap.has_delete_iff.mpr ⟨hne, hr⟩, fun hd => hd⟩,
        fun he => by cases he⟩
    · exact fun h => .inl ⟨.refl h, fun he => by cases he⟩
  | socketError id message =>
    obtain ⟨hne, hactive⟩ := OrdMap.has_delete_iff.mp h
    exact .inl ⟨⟨hactive, fun hl => hl, fun hr => OrdMap.has_delete_iff.mpr ⟨hne, hr⟩, fun hd => hd⟩,
      fun he => by cases he⟩
  | dataPlaneDone id =>
    obtain ⟨hne, hactive⟩ := OrdMap.has_delete_iff.mp h
    exact .inl ⟨⟨hactive, fun hl => hl, fun hr => hr, fun hd => OrdMap.has_delete_iff.mpr ⟨hne, hd⟩⟩,
      fun he => by cases he⟩
  | executed id output => exact .inl ⟨⟨h, fun h => h, fun h => h, fun h => h⟩, fun he => by cases he⟩
  | connectionClosed => cases h

end Step

/-! ### Runs -/

variable {p} {pre : List ControlEvent} {s : ControlState}

theorem OpenSession.concat {id : JsString} (h : OpenSession pre id) {e : ControlEvent}
    (he : e ≠ .streamClose id) : OpenSession (pre ++ [e]) id := by
  obtain ⟨a, b, rfl, hb⟩ := h
  refine ⟨a, b ++ [e], by simp, fun hm => ?_⟩
  rcases List.mem_append.mp hm with hm | hm
  · exact hb hm
  · exact he (List.mem_singleton.mp hm).symm

theorem OpenedWith.concat {q : StreamTarget → Bool} {id : JsString} (h : OpenedWith p q pre id) (e : ControlEvent) :
    OpenedWith p q (pre ++ [e]) id := by
  obtain ⟨x, hx, hopens⟩ := h
  exact ⟨x, List.mem_append_left _ hx, hopens⟩

theorem OpenedWith.last {q : StreamTarget → Bool} {id : JsString} {target : Option JsString} {t : StreamTarget}
    (ht : parseStreamTarget p target = some t) (hq : q t = true) :
    OpenedWith p q (pre ++ [.streamOpen id target]) id :=
  ⟨_, List.mem_append_right _ (List.mem_singleton_self _), opensWith_open p ht hq⟩

theorem Placed.step (h : Placed p pre s) (e : ControlEvent) : Placed p (pre ++ [e]) (s.step p e) := by
  intro x hx
  rcases kept_or_opened hx with ⟨hk, hself⟩ | ⟨target, rfl, (rfl | ⟨t, ht, howner | hthrows⟩) | hm⟩
  · by_cases he : e = .streamClose x
    · exact .inr (.inr (.inr (hself he)))
    · rcases h x hk.active with ho | ho | ho | hm
      · exact .inl (ho.concat he)
      · exact .inr (.inl (ho.concat e))
      · exact .inr (.inr (.inl (ho.concat e)))
      · exact .inr (.inr (.inr (hk.mapped hm)))
  · exact .inl ⟨pre, [], rfl, by simp⟩
  · exact .inr (.inl (.last ht howner))
  · exact .inr (.inr (.inl (.last ht hthrows)))
  · exact .inr (.inr (.inr hm))

variable (p) in
/-- **The condition.** Data arrives for active streams only; for a stream that was opened as the owner of a
tunnel only while a tunnel has it as its owner stream, and for a raw tunnel only if it has got a socket. -/
def DataExpected (pre : List ControlEvent) (s : ControlState) (e : ControlEvent) : Prop :=
  ∀ id data, e = .streamData id data → s.activeStreams.has id = true ∧
    (OpenedAsOwner p pre id → (s.ownerEntry? id).isSome = true) ∧ ¬ OpenedUnconnected p pre id

instance (pre : List ControlEvent) (s : ControlState) (e : ControlEvent) :
    Decidable (DataExpected p pre s e) :=
  match e with
  | .streamData id data =>
    decidable_of_iff (s.activeStreams.has id = true ∧
      (OpenedAsOwner p pre id → (s.ownerEntry? id).isSome = true) ∧ ¬ OpenedUnconnected p pre id) (by
        constructor
        · rintro h id' data' ⟨⟩
          exact h
        · intro h
          exact h id data rfl)
  | .streamOpen _ _ | .streamClose _ | .socketData _ _ | .socketClosed _ | .socketError _ _
  | .dataPlaneDone _ | .executed _ _ | .connectionClosed => .isTrue (by
      rintro id data ⟨⟩)

variable (p) in
/-- What is executed came on an open proxy session. -/
def ExecutesOpenSessions (pre : List ControlEvent) (s : ControlState) (e : ControlEvent) : Prop :=
  ∀ id bytes, .executeProxySessionMessage id bytes ∈ (s.handle p e).2 → OpenSession pre id

section Executed

variable {id : JsString} {bytes : Bytes}

theorem not_executed_frame {O : JsString} {type : PublicTunnelFrame} {k : ℕ} {payload : Bytes} :
    .executeProxySessionMessage id bytes ∉ sendFrame O type k payload := by
  intro h
  unfold sendFrame at h
  split at h <;> simp at h

theorem not_executed_open {id' : JsString} {target : Option JsString} :
    .executeProxySessionMessage id bytes ∉ (s.handleOpen p id' target).2 := by
  intro h
  unfold ControlState.handleOpen ControlState.openPublicStream at h
  dsimp only at h
  split at h
  · simp at h
  · split at h
    · simp at h
    · split at h
      · simp at h
      · exact absurd h not_executed_frame
    · simp at h
    · simp at h
    · split at h
      · simp at h
      · simp at h

theorem not_executed_ownerFrame {o : TunnelOwner} {f : DecodedFrame} :
    .executeProxySessionMessage id bytes ∉ (s.handleOwnerFrame o f).2 := by
  intro h
  unfold ControlState.handleOwnerFrame at h
  split at h
  · dsimp only at h
    exact absurd h not_executed_frame
  split at h
  · simp at h
  split at h
  · simp at h
  · simp at h
  · split at h
    · simp at h
    split at h
    · simp at h
    split at h
    · simp at h
    · simp at h

theorem not_executed_close {id' : JsString} :
    .executeProxySessionMessage id bytes ∉ (s.handleClose id').2 := by
  intro h
  unfold ControlState.handleClose ControlState.closeOwner at h
  split at h
  · simp at h
  · split at h
    · split at h
      · simp at h
      · split at h
        · simp at h
        · simp at h
    · split at h
      · simp at h
      · dsimp only at h
        split at h
        · simp at h
        · simp at h

theorem executed_data {id' data : JsString}
    (h : .executeProxySessionMessage id bytes ∈ (s.handleData id' data).2) :
    id' = id ∧ s.ownerEntry? id = none ∧ ¬ s.Mapped id := by
  unfold ControlState.handleData at h
  split at h
  · split at h
    · exact absurd h not_executed_ownerFrame
    · simp at h
  · rename_i hentry
    split at h
    · split at h
      · simp at h
      · exact absurd h not_executed_frame
    · rename_i hlink
      split at h
      · simp at h
      rename_i hraw
      split at h
      · simp at h
      rename_i hdata
      have heq := List.mem_singleton.mp h
      cases heq
      refine ⟨rfl, hentry, ?_⟩
      rintro (hm | hm | hm)
      · unfold OrdMap.has at hm
        rw [hlink] at hm
        cases hm
      · exact hraw hm
      · exact hdata hm

/-- Only data that no map claims is executed. -/
theorem unclaimed_of_executed {e : ControlEvent} (h : .executeProxySessionMessage id bytes ∈ (s.handle p e).2) :
    (∃ data, e = .streamData id data) ∧ s.ownerEntry? id = none ∧ ¬ s.Mapped id := by
  cases e with
  | streamOpen id' target => exact absurd h not_executed_open
  | streamData id' data =>
    obtain ⟨rfl, hunclaimed⟩ := executed_data h
    exact ⟨⟨data, rfl⟩, hunclaimed⟩
  | streamClose id' => exact absurd h not_executed_close
  | socketData id' data => simp [ControlState.handle] at h
  | socketClosed id' =>
    simp only [ControlState.handle] at h
    split at h
    · simp at h
    · simp at h
  | socketError id' message => simp [ControlState.handle] at h
  | dataPlaneDone id' => simp [ControlState.handle] at h
  | executed id' output =>
    simp only [ControlState.handle] at h
    split at h
    · simp at h
    · simp at h
  | connectionClosed => simp [ControlState.handle, ControlState.handleConnectionClosed] at h

end Executed

/-- **Only open proxy sessions are executed**, in every run whose steps meet the condition. -/
theorem executed_only_open {events : List ControlEvent}
    (hc : Steps (ControlState.step p) (DataExpected p) {} events) :
    Steps (ControlState.step p) (ExecutesOpenSessions p) {} events := by
  have hempty : Placed p [] {} := by
    intro id h
    cases h
  refine Steps.of_inv (J := Placed p) hempty (fun pre e h _ => h.step e) ?_ hc
  intro pre e hplaced hcond id bytes hexec
  obtain ⟨⟨data, he⟩, hentry, hmapped⟩ := unclaimed_of_executed hexec
  obtain ⟨hactive, howner, hconnected⟩ := hcond id data he
  rcases hplaced id hactive with h | h | h | h
  · exact h
  · have hsome := howner h
    rw [hentry] at hsome
    cases hsome
  · exact absurd h hconnected
  · exact absurd h hmapped

/-! ### Two runs -/

namespace Sample

def plainPlatform : Platform := Tables.platform {}

def rawTarget : Option JsString :=
  some (stringify (.obj [(js "kind", .str (js "raw-tunnel")), (js "host", .str (js "db.example")),
    (js "port", .num (.ofNat 5432))]))

/-- A raw tunnel to a host that is no text. -/
def hostlessTarget : Option JsString :=
  some (stringify (.obj [(js "kind", .str (js "raw-tunnel")), (js "host", .num (.ofNat 1)),
    (js "port", .num (.ofNat 5432))]))

/-- A proxy session beside two raw tunnels, one of them without a socket. -/
def sessions : List ControlEvent :=
  [.streamOpen (js "s1") (some (js "proxy-session")), .streamOpen (js "r1") rawTarget,
    .streamOpen (js "r2") hostlessTarget, .streamData (js "r1") (base64 (utf8 (js "hello"))),
    .streamData (js "s1") (base64 (utf8 (js "null"))), .socketClosed (js "r1"), .streamClose (js "s1")]

/-- The target of a raw tunnel closes. -/
def endedTunnel : List ControlEvent :=
  [.streamOpen (js "r1") rawTarget, .socketClosed (js "r1")]

theorem sessions_executed :
    Steps (ControlState.step plainPlatform) (ExecutesOpenSessions plainPlatform) {} sessions :=
  executed_only_open (by decide +kernel)

/-- Data of the raw tunnel that arrives after its end is executed. -/
theorem late_data_executed :
    (openIds endedTunnel).Nodup ∧
      ¬ ExecutesOpenSessions plainPlatform endedTunnel
        (run (ControlState.step plainPlatform) {} endedTunnel)
        (.streamData (js "r1") (base64 (utf8 (js "hello")))) := by
  refine ⟨by decide, fun h => ?_⟩
  obtain ⟨a, b, heq, -⟩ := h (js "r1") (utf8 (js "hello")) (by decide +kernel)
  have hmem : ControlEvent.streamOpen (js "r1") (some (js "proxy-session")) ∈ endedTunnel := by
    rw [heq]
    simp
  exact absurd hmem (by decide)

end Sample

end ConsensusNode.Clients
