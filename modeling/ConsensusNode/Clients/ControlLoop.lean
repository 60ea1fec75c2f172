import ConsensusNode.Tunnel.Connect

/-! # The control loop

`control.ts` with the beginning and the end of `startControlClient`: the loop connects a control tunnel, waits for
its end, and connects again after a delay. Each attempt has a socket of its own, and no socket is ever closed when
an attempt fails, so the events of older sockets go on beside those of the current one.

* `control_loop_returns`: the loop gets to the next attempt once its socket has closed, and the one case in which it
  waits for ever.
* `one_control_client`: only the last socket can have a client that reports, and the delays between the attempts. -/

namespace ConsensusNode.Clients

open Js Lib Lib.Run Crypto Tunnel Tunnel.Handshake

variable (p : Platform)

/-! ### The loop -/

/-- What `startControlClient` has before it connects. -/
structure ControlStart where
  gatewayUrl : JsString
  nodeId : JsString
  version : JsString
  publicKeyPem : JsString
  handshake : ClientHandshake

/-- The options of `connectEncryptedTunnel`; no server key is pinned. -/
def ControlStart.options (c : ControlStart) : ConnectEncryptedTunnelOptions where
  url := c.gatewayUrl
  mode := .control
  nodeId := some c.nodeId
  candidateId := none
  releaseVersion := some c.version
  serverPublicKeyPem := none
  publicKeyPem := c.publicKeyPem

structure ControlSocket where
  start : ControlStart
  state : ConnectState := {}
  /-- The first heartbeat. -/
  heartbeat : Option Bytes := none

/-- What `main` waits for. -/
inductive LoopPhase where
  /-- `startControlClient` before the socket: the configuration, the identity, the keys of the handshake. -/
  | preparing
  /-- `connectEncryptedTunnel` on the last socket. -/
  | connecting
  /-- `connected.closed` of the last socket. -/
  | serving
  | sleeping (delayMs : ℕ)
deriving DecidableEq

/-- The log of `main`. -/
inductive LoopNote where
  | connectStart (attempt : ℕ)
  | connected
  | closed
  | connectFailed
  | reconnectScheduled (attempt delayMs : ℕ)
deriving DecidableEq

structure ControlLoop where
  attempt : ℕ := 0
  phase : LoopPhase := .preparing
  /-- Every socket so far. -/
  sockets : List ControlSocket := []
  notes : List LoopNote := [.connectStart 1]

inductive LoopEvent where
  | prepared (start : Except JsError ControlStart)
  | socket (n : ℕ) (event : ConnectEvent)
  | woke

/-- An event, with the clock, the random values and the report of the machine that its turn uses. -/
structure LoopTurn where
  event : LoopEvent
  now : JsNumber
  helloNonce : Bytes
  heartbeatNonce : Bytes
  uptimeSeconds : ℕ
  capabilities : Json
  jitter : Fin 500

def heartbeatMessage (nodeId : JsString) (t : LoopTurn) (activeRequests activeStreams : ℕ) : Json :=
  .obj [(js "type", .str (js "heartbeat")), (js "timestamp", .num t.now), (js "node_id", .str nodeId),
    (js "uptime_seconds", .num (JsNumber.ofNat t.uptimeSeconds)), (js "capabilities", t.capabilities),
    (js "active_requests", .num (JsNumber.ofNat activeRequests)),
    (js "active_streams", .num (JsNumber.ofNat activeStreams))]

/-- `2 ** (capped - 1)` is half of `2 ** capped`, also for 0. -/
def reconnectDelayMs (attempt : ℕ) (jitter : Fin 500) : ℕ :=
  let capped := min attempt 6
  let base := min 30000 (1000 * 2 ^ capped / 2)
  base + jitter

namespace ControlLoop

variable (s : ControlLoop) (t : LoopTurn)

/-- The end of a turn of the loop. -/
def retry (note : LoopNote) : ControlLoop :=
  let attempt := s.attempt + 1
  let delayMs := reconnectDelayMs attempt t.jitter
  { s with
    attempt := attempt
    phase := .sleeping delayMs
    notes := s.notes ++ [note, .reconnectScheduled attempt delayMs] }

def onPrepared (start : Except JsError ControlStart) : ControlLoop :=
  match s.phase, start with
  | .preparing, .error _ => s.retry t .connectFailed
  | .preparing, .ok start => { s with phase := .connecting, sockets := s.sockets ++ [{ start := start }] }
  | _, _ => s

/-- The first `sendHeartbeat`; the client has sent the hello only. -/
def heartbeatSent (x : ControlSocket) (session : SecureSession) (client : TunnelClient) : Except JsError Bytes :=
  (client.send p session
    { message := heartbeatMessage x.start.nodeId t 0 0, nonce := t.heartbeatNonce }).1

/-- What the loop makes of the state of the last socket. -/
def settle (x : ControlSocket) : ControlLoop :=
  match s.phase, x.state.phase with
  | .connecting, .connected session client =>
    match heartbeatSent p t x session client with
    | .error _ => s.retry t .connectFailed
    | .ok raw =>
      { s with
        attempt := 0
        phase := .serving
        sockets := s.sockets.dropLast ++ [{ x with heartbeat := some raw }]
        notes := s.notes ++ [.connected] }
  | .connecting, .failed _ => s.retry t .connectFailed
  | .serving, .over => s.retry t .closed
  | _, _ => s

def onSocket (n : ℕ) (event : ConnectEvent) : ControlLoop :=
  match s.sockets[n]? with
  | none => s
  | some x =>
    let x := { x with state := x.state.step p x.start.options x.start.handshake ⟨event, t.now, t.helloNonce⟩ }
    let s := { s with sockets := s.sockets.set n x }
    if n + 1 = s.sockets.length then s.settle p t x else s

def onWoke : ControlLoop :=
  match s.phase with
  | .sleeping _ => { s with phase := .preparing, notes := s.notes ++ [.connectStart (s.attempt + 1)] }
  | _ => s

def step : ControlLoop :=
  match t.event with
  | .prepared start => s.onPrepared t start
  | .socket n event => s.onSocket p t n event
  | .woke => s.onWoke

end ControlLoop

/-! ### What the sockets do -/

/-- The turns of one socket. -/
def turnsOf (n : ℕ) (turns : List LoopTurn) : List ConnectTurn :=
  turns.filterMap fun t => match t.event with
    | .socket m event => if m = n then some ⟨event, t.now, t.helloNonce⟩ else none
    | _ => none

/-- Each socket exists before its events, and they come in order. -/
def LoopEvent.Orderly (pre : List LoopTurn) (s : ControlLoop) : LoopEvent → Prop
  | .prepared _ => True
  | .socket n event => ∃ x, s.sockets[n]? = some x ∧ event.Orderly (turnsOf n pre) x.state
  | .woke => True

instance LoopEvent.decidableOrderly (pre : List LoopTurn) (s : ControlLoop) :
    ∀ e : LoopEvent, Decidable (e.Orderly pre s)
  | .prepared _ => .isTrue trivial
  | .socket n event =>
    match hx : s.sockets[n]? with
    | none => .isFalse fun h => absurd (hx.symm.trans h.choose_spec.1) (by simp)
    | some x => decidable_of_iff (event.Orderly (turnsOf n pre) x.state) <| by
      constructor
      · exact fun h => ⟨x, hx, h⟩
      · rintro ⟨y, hy, h⟩
        obtain rfl := Option.some.inj (hx.symm.trans hy)
        exact h
  | .woke => .isTrue trivial

def LoopOrderly (pre : List LoopTurn) (s : ControlLoop) (t : LoopTurn) : Prop := t.event.Orderly pre s

instance decidableLoopOrderly (pre : List LoopTurn) (s : ControlLoop) (t : LoopTurn) :
    Decidable (LoopOrderly pre s t) :=
  inferInstanceAs (Decidable (t.event.Orderly pre s))

variable {p} {turns : List LoopTurn} {s : ControlLoop} {t : LoopTurn}

/-! ### Sockets and their turns -/

section Sockets

/-- The turn of a socket that a turn of the loop is. -/
def LoopTurn.connectTurn (t : LoopTurn) (event : ConnectEvent) : ConnectTurn := ⟨event, t.now, t.helloNonce⟩

theorem turnsOf_concat (n : ℕ) (turns : List LoopTurn) (t : LoopTurn) :
    turnsOf n (turns ++ [t]) = turnsOf n turns ++ turnsOf n [t] := List.filterMap_append

theorem turnsOf_self {n : ℕ} {event : ConnectEvent} (ht : t.event = .socket n event) :
    turnsOf n [t] = [t.connectTurn event] := by
  simp [turnsOf, ht, LoopTurn.connectTurn]

theorem turnsOf_other {n m : ℕ} {event : ConnectEvent} (ht : t.event = .socket n event) (hne : m ≠ n) :
    turnsOf m [t] = [] := by
  have hne' : ¬ n = m := fun h => hne h.symm
  simp [turnsOf, ht, hne']

theorem turnsOf_none {n : ℕ} (ht : ∀ m event, t.event ≠ .socket m event) : turnsOf n [t] = [] := by
  rcases he : t.event with start | ⟨m, event⟩ | _
  · simp [turnsOf, he]
  · exact absurd he (ht m event)
  · simp [turnsOf, he]

variable (p) in
/-- The state of a socket is that of a run of its own turns. -/
structure Follows (turns : List LoopTurn) (sockets : List ControlSocket) : Prop where
  orderly : ∀ {n x}, sockets[n]? = some x → SocketRun p x.start.options x.start.handshake (turnsOf n turns)
  state : ∀ {n x}, sockets[n]? = some x →
    x.state = run (ConnectState.step p x.start.options x.start.handshake) {} (turnsOf n turns)
  fresh : ∀ {n}, sockets.length ≤ n → turnsOf n turns = []

/-- A turn that is no event of a socket. -/
theorem Follows.other {sockets : List ControlSocket} (h : Follows p turns sockets)
    (ht : ∀ m event, t.event ≠ .socket m event) : Follows p (turns ++ [t]) sockets := by
  have hsame : ∀ n, turnsOf n (turns ++ [t]) = turnsOf n turns := by
    intro n
    rw [turnsOf_concat, turnsOf_none ht, List.append_nil]
  refine ⟨?_, ?_, ?_⟩
  · intro n x hx
    exact hsame n ▸ h.orderly hx
  · intro n x hx
    exact hsame n ▸ h.state hx
  · intro n hn
    exact hsame n ▸ h.fresh hn

/-- A new socket. -/
theorem Follows.opened {sockets : List ControlSocket} (h : Follows p turns sockets) (start : ControlStart) :
    Follows p turns (sockets ++ [{ start := start }]) := by
  have hnew : ∀ {n x}, (sockets ++ [({ start := start } : ControlSocket)])[n]? = some x → sockets[n]? = some x ∨
      turnsOf n turns = [] ∧ x = { start := start } := by
    intro n x hx
    rcases Nat.lt_or_ge n sockets.length with hlt | hge
    · exact .inl ((List.getElem?_append_left hlt).symm.trans hx)
    · rw [List.getElem?_append_right hge] at hx
      refine .inr ⟨h.fresh hge, ?_⟩
      exact (List.mem_singleton.mp (List.mem_of_getElem? hx))
  refine ⟨?_, ?_, ?_⟩
  · intro n x hx
    rcases hnew hx with hold | ⟨hnil, -⟩
    · exact h.orderly hold
    · rw [hnil]
      exact .nil
  · intro n x hx
    rcases hnew hx with hold | ⟨hnil, rfl⟩
    · exact h.state hold
    · rw [hnil]
      rfl
  · intro n hn
    rw [List.length_append] at hn
    exact h.fresh (by omega)

/-- An event of a socket. -/
theorem Follows.event {sockets : List ControlSocket} (h : Follows p turns sockets) {n : ℕ} {x y : ControlSocket}
    {event : ConnectEvent} (ht : t.event = .socket n event) (hx : sockets[n]? = some x)
    (ho : event.Orderly (turnsOf n turns) x.state) (hstart : y.start = x.start)
    (hstate : y.state = x.state.step p x.start.options x.start.handshake (t.connectTurn event)) :
    Follows p (turns ++ [t]) (sockets.set n y) := by
  have hself : turnsOf n (turns ++ [t]) = turnsOf n turns ++ [t.connectTurn event] := by
    rw [turnsOf_concat, turnsOf_self ht]
  have hother : ∀ {m}, m ≠ n → turnsOf m (turns ++ [t]) = turnsOf m turns := by
    intro m hm
    rw [turnsOf_concat, turnsOf_other ht hm, List.append_nil]
  have hlt : n < sockets.length := (List.getElem?_eq_some_iff.mp hx).1
  have hset : (sockets.set n y)[n]? = some y := List.getElem?_set_self hlt
  refine ⟨?_, ?_, ?_⟩
  · intro m z hz
    by_cases hm : m = n
    · subst hm
      obtain rfl := Option.some.inj (hset.symm.trans hz)
      rw [hself, hstart]
      refine (h.orderly hx).concat ?_
      rw [← h.state hx]
      exact ho
    · rw [List.getElem?_set_ne (fun h => hm h.symm)] at hz
      rw [hother hm]
      exact h.orderly hz
  · intro m z hz
    by_cases hm : m = n
    · subst hm
      obtain rfl := Option.some.inj (hset.symm.trans hz)
      rw [hself, hstart, run_concat, ← h.state hx, hstate]
    · rw [List.getElem?_set_ne (fun h => hm h.symm)] at hz
      rw [hother hm]
      exact h.state hz
  · intro m hm
    rw [List.length_set] at hm
    rw [hother (by omega)]
    exact h.fresh hm

end Sockets

/-! ### Where the loop is -/

section Place

/-- A socket that the loop has left: its attempt has failed, its tunnel has closed, or its first heartbeat could not
be sent. -/
def ControlSocket.Left (x : ControlSocket) : Prop :=
  x.state.phase.isWaiting = false ∧ (x.state.phase.session?.isSome = true → x.heartbeat = none)

inductive Place (s : ControlLoop) : Prop
  | between (phase : s.phase = .preparing ∨ ∃ d, s.phase = .sleeping d) (left : ∀ x ∈ s.sockets, x.Left) : Place s
  | connecting {older : List ControlSocket} {x : ControlSocket} (phase : s.phase = .connecting)
      (sockets : s.sockets = older ++ [x]) (left : ∀ y ∈ older, y.Left) (waiting : x.state.phase.isWaiting = true)
      (silent : x.heartbeat = none) : Place s
  | serving {older : List ControlSocket} {x : ControlSocket} (phase : s.phase = .serving)
      (sockets : s.sockets = older ++ [x]) (left : ∀ y ∈ older, y.Left)
      (serves : x.state.phase.session?.isSome = true) : Place s

variable (p) in
/-- The socket after an event. -/
def ControlSocket.next (x : ControlSocket) (t : LoopTurn) (event : ConnectEvent) : ControlSocket :=
  { x with state := x.state.step p x.start.options x.start.handshake (t.connectTurn event) }

theorem ControlSocket.Left.next {x : ControlSocket} (h : x.Left) (t : LoopTurn) (event : ConnectEvent) :
    (x.next p t event).Left := by
  have hended := step_of_ended (p := p) (o := x.start.options) (t := t.connectTurn event) x.start.handshake h.1
  rcases hended with hphase | ⟨-, hphase⟩
  · have hsame : (x.next p t event).state.phase = x.state.phase := hphase
    refine ⟨?_, ?_⟩
    · rw [hsame]
      exact h.1
    · rw [hsame]
      exact h.2
  · have hover : (x.next p t event).state.phase = .over := hphase
    refine ⟨?_, ?_⟩
    · rw [hover]
      rfl
    · rw [hover]
      intro hsome
      cases hsome

theorem left_set {sockets : List ControlSocket} (h : ∀ x ∈ sockets, x.Left) {n : ℕ} {y : ControlSocket}
    (hy : y.Left) : ∀ x ∈ sockets.set n y, x.Left := by
  intro x hx
  rcases List.mem_or_eq_of_mem_set hx with hx | rfl
  · exact h x hx
  · exact hy

theorem onSocket_some {n : ℕ} {x : ControlSocket} {event : ConnectEvent} (hx : s.sockets[n]? = some x) :
    s.onSocket p t n event = if n + 1 = s.sockets.length then
      { s with sockets := s.sockets.set n (x.next p t event) }.settle p t (x.next p t event) else
      { s with sockets := s.sockets.set n (x.next p t event) } := by
  unfold ControlLoop.onSocket
  rw [hx]
  dsimp only
  rw [List.length_set]
  rfl

/-- The current socket is the last one. -/
theorem set_last {older : List ControlSocket} {x : ControlSocket} (y : ControlSocket) :
    (older ++ [x]).set older.length y = older ++ [y] := by
  rw [List.set_append_right _ _ (Nat.le_refl _), Nat.sub_self]
  rfl

theorem set_older {older : List ControlSocket} {x : ControlSocket} {n : ℕ} (hn : n < older.length)
    (y : ControlSocket) : (older ++ [x]).set n y = older.set n y ++ [x] := List.set_append_left _ _ hn

theorem place_retry {note : LoopNote} (h : ∀ x ∈ s.sockets, x.Left) : Place (s.retry t note) :=
  .between (.inr ⟨_, rfl⟩) h

theorem left_concat {older : List ControlSocket} {x : ControlSocket} (h : ∀ y ∈ older, y.Left) (hx : x.Left) :
    ∀ y ∈ older ++ [x], y.Left := by
  intro y hy
  rcases List.mem_append.mp hy with hy | hy
  · exact h y hy
  · exact List.mem_singleton.mp hy ▸ hx

/-- Between two attempts the sockets do not matter. -/
theorem settle_between (h : s.phase = .preparing ∨ ∃ d, s.phase = .sleeping d) (y : ControlSocket) :
    s.settle p t y = s := by
  unfold ControlLoop.settle
  rcases h with h | ⟨d, h⟩ <;> rw [h]

/-- The end of a turn in which the attempt on the last socket has gone on. -/
theorem place_connecting {older : List ControlSocket} {y : ControlSocket} (hphase : s.phase = .connecting)
    (hsockets : s.sockets = older ++ [y]) (hleft : ∀ x ∈ older, x.Left) (hsilent : y.heartbeat = none)
    (hover : y.state.phase ≠ .over) : Place (s.settle p t y) := by
  unfold ControlLoop.settle
  rw [hphase]
  rcases hy : y.state.phase with _ | _ | b | accept | session | ⟨session, client⟩ | _ | e
  · exact .connecting hphase hsockets hleft (by rw [hy]; rfl) hsilent
  · exact .connecting hphase hsockets hleft (by rw [hy]; rfl) hsilent
  · exact .connecting hphase hsockets hleft (by rw [hy]; rfl) hsilent
  · exact .connecting hphase hsockets hleft (by rw [hy]; rfl) hsilent
  · exact .connecting hphase hsockets hleft (by rw [hy]; rfl) hsilent
  · dsimp only
    rcases ControlLoop.heartbeatSent p t y session client with e | raw
    · refine place_retry ?_
      rw [hsockets]
      exact left_concat hleft ⟨by rw [hy]; rfl, fun _ => hsilent⟩
    · refine .serving rfl (by rw [hsockets, List.dropLast_concat]) hleft ?_
      show y.state.phase.session?.isSome = true
      rw [hy]
      rfl
  · exact absurd hy hover
  · refine place_retry ?_
    rw [hsockets]
    refine left_concat hleft ⟨by rw [hy]; rfl, ?_⟩
    rw [hy]
    intro hsome
    cases hsome

theorem place_serving {older : List ControlSocket} {y : ControlSocket} (hphase : s.phase = .serving)
    (hsockets : s.sockets = older ++ [y]) (hleft : ∀ x ∈ older, x.Left)
    (hy : y.state.phase.session?.isSome = true ∨ y.state.phase = .over) : Place (s.settle p t y) := by
  unfold ControlLoop.settle
  rw [hphase]
  rcases hy with hserves | hover
  · rcases hy : y.state.phase with _ | _ | b | accept | session | ⟨session, client⟩ | _ | e <;>
      rw [hy] at hserves <;> cases hserves
    exact .serving hphase hsockets hleft (by rw [hy]; rfl)
  · rw [hover]
    refine place_retry ?_
    rw [hsockets]
    refine left_concat hleft ⟨by rw [hover]; rfl, ?_⟩
    rw [hover]
    intro hsome
    cases hsome

theorem isWaiting_of_session {phase : ConnectPhase} (h : phase.session?.isSome = true) :
    phase.isWaiting = false := by
  rcases phase with _ | _ | b | accept | session | ⟨session, client⟩ | _ | e <;> first | rfl | cases h

theorem endsWithSocket_of_session {phase : ConnectPhase} (h : phase.session?.isSome = true) :
    phase.endsWithSocket = true := by
  rcases phase with _ | _ | b | accept | session | ⟨session, client⟩ | _ | e <;> first | rfl | cases h

/-- An event is one of the last socket or one of an older socket. -/
theorem last_or_older {older : List ControlSocket} {last x : ControlSocket} {n : ℕ}
    (hx : (older ++ [last])[n]? = some x) :
    (n = older.length ∧ last = x) ∨ (n < older.length ∧ older[n]? = some x) := by
  rcases Nat.lt_or_ge n older.length with hlt | hge
  · rw [List.getElem?_append_left hlt] at hx
    exact .inr ⟨hlt, hx⟩
  · have hbound := (List.getElem?_eq_some_iff.mp hx).1
    rw [List.length_append, List.length_singleton] at hbound
    obtain rfl : n = older.length := by omega
    exact .inl ⟨rfl, by simpa using hx⟩

theorem place_socket {n : ℕ} {x : ControlSocket} {event : ConnectEvent} (h : Place s)
    (hx : s.sockets[n]? = some x) : Place (s.onSocket p t n event) := by
  rw [onSocket_some hx]
  rcases h with ⟨phase, left⟩ | ⟨phase, sockets, left, waiting, silent⟩ | ⟨phase, sockets, left, serves⟩
  · have hleft := left_set left (n := n) ((left x (List.mem_of_getElem? hx)).next (p := p) t event)
    split_ifs
    · rw [settle_between (s := { s with sockets := s.sockets.set n (x.next p t event) }) phase]
      exact .between phase hleft
    · exact .between phase hleft
  · rename_i older last
    rw [sockets] at hx ⊢
    rcases last_or_older hx with ⟨rfl, rfl⟩ | ⟨hlt, hx⟩
    · rw [if_pos (by simp), set_last]
      exact place_connecting phase rfl left silent (step_ne_over waiting)
    · rw [if_neg (by simp; omega), set_older hlt]
      refine .connecting phase rfl (left_set left ?_) waiting silent
      exact (left x (List.mem_of_getElem? hx)).next t event
  · rename_i older last
    rw [sockets] at hx ⊢
    rcases last_or_older hx with ⟨rfl, rfl⟩ | ⟨hlt, hx⟩
    · rw [if_pos (by simp), set_last]
      refine place_serving phase rfl left ?_
      have hstep := step_of_ended (p := p) (o := last.start.options) (t := t.connectTurn event)
        last.start.handshake (isWaiting_of_session serves)
      rcases hstep with hphase | ⟨-, hover⟩
      · refine .inl ?_
        show (last.state.step p _ _ _).phase.session?.isSome = true
        rw [hphase]
        exact serves
      · exact .inr hover
    · rw [if_neg (by simp; omega), set_older hlt]
      refine .serving phase rfl (left_set left ?_) serves
      exact (left x (List.mem_of_getElem? hx)).next t event

theorem place_step (h : Place s) : Place (s.step p t) := by
  unfold ControlLoop.step
  rcases t.event with start | ⟨n, event⟩ | _ <;> dsimp only
  · unfold ControlLoop.onPrepared
    split
    · rename_i e hphase
      rcases h with ⟨-, left⟩ | ⟨phase, -⟩ | ⟨phase, -⟩
      · exact place_retry left
      · exact absurd (hphase.symm.trans phase) (by simp)
      · exact absurd (hphase.symm.trans phase) (by simp)
    · rename_i start hphase
      rcases h with ⟨-, left⟩ | ⟨phase, -⟩ | ⟨phase, -⟩
      · exact .connecting rfl rfl left rfl rfl
      · exact absurd (hphase.symm.trans phase) (by simp)
      · exact absurd (hphase.symm.trans phase) (by simp)
    · exact h
  · rcases hx : s.sockets[n]? with _ | x
    · unfold ControlLoop.onSocket
      rw [hx]
      exact h
    · exact place_socket h hx
  · unfold ControlLoop.onWoke
    split
    · rename_i d hphase
      rcases h with ⟨-, left⟩ | ⟨phase, -⟩ | ⟨phase, -⟩
      · exact .between (.inl rfl) left
      · exact absurd (hphase.symm.trans phase) (by simp)
      · exact absurd (hphase.symm.trans phase) (by simp)
    · exact h

end Place

/-! ### Runs of the loop -/

section Runs

variable (p) in
def LoopRun (turns : List LoopTurn) : Prop := Steps (ControlLoop.step p) LoopOrderly {} turns

theorem settle_sockets (y : ControlSocket) : (s.settle p t y).sockets = s.sockets ∨
    ∃ raw, (s.settle p t y).sockets = s.sockets.dropLast ++ [{ y with heartbeat := some raw }] := by
  unfold ControlLoop.settle
  split
  · split
    · exact .inl rfl
    · exact .inr ⟨_, rfl⟩
  · exact .inl rfl
  · exact .inl rfl
  · exact .inl rfl

theorem follows_socket {n : ℕ} {event : ConnectEvent} (h : Follows p turns s.sockets)
    (ht : t.event = .socket n event) {x : ControlSocket} (hx : s.sockets[n]? = some x)
    (ho : event.Orderly (turnsOf n turns) x.state) :
    Follows p (turns ++ [t]) (s.onSocket p t n event).sockets := by
  have hset : ∀ heartbeat, Follows p (turns ++ [t])
      (s.sockets.set n { x.next p t event with heartbeat := heartbeat }) := fun _ => h.event ht hx ho rfl rfl
  rw [onSocket_some hx]
  split_ifs with hn
  · rcases settle_sockets (p := p) (t := t) (s := { s with sockets := s.sockets.set n (x.next p t event) })
      (x.next p t event) with hs | ⟨raw, hs⟩
    · rw [hs]
      exact hset x.heartbeat
    · rw [hs]
      obtain ⟨older, last, hsockets⟩ : ∃ older last, s.sockets = older ++ [last] := by
        rcases List.eq_nil_or_concat s.sockets with hnil | ⟨older, last, hsockets⟩
        · rw [hnil] at hx
          cases hx
        · exact ⟨older, last, hsockets.trans List.concat_eq_append⟩
      have hlen : n = older.length := by simpa [hsockets] using hn
      have hraw := hset (some raw)
      show Follows p _ ((s.sockets.set n _).dropLast ++ _)
      rw [hsockets, hlen, set_last] at hraw ⊢
      rw [List.dropLast_concat]
      exact hraw
  · exact hset x.heartbeat

theorem follows_step (h : Follows p turns s.sockets) (ho : LoopOrderly turns s t) :
    Follows p (turns ++ [t]) (s.step p t).sockets := by
  unfold ControlLoop.step
  unfold LoopOrderly at ho
  rcases ht : t.event with start | ⟨n, event⟩ | _ <;> rw [ht] at ho <;> dsimp only at ho ⊢
  · have hother := h.other (t := t) (by simp [ht])
    unfold ControlLoop.onPrepared
    split
    · exact hother
    · exact hother.opened _
    · exact hother
  · obtain ⟨x, hx, horderly⟩ := ho
    exact follows_socket h ht hx horderly
  · have hother := h.other (t := t) (by simp [ht])
    unfold ControlLoop.onWoke
    split
    · exact hother
    · exact hother

theorem follows_run (h : LoopRun p turns) : Follows p turns (run (ControlLoop.step p) {} turns).sockets := by
  refine run_induct (J := fun turns s => Follows p turns s.sockets) ?_ (fun pre t hf ho => follows_step hf ho) h
  refine ⟨?_, ?_, fun _ => rfl⟩
  · intro n x hx
    cases hx
  · intro n x hx
    cases hx

theorem place_run (turns : List LoopTurn) : Place (run (ControlLoop.step p) {} turns) := by
  refine run_induct (C := fun _ _ _ => True) (J := fun _ s => Place s) ?_ (fun pre t h _ => place_step h) ?_
  · exact .between (.inl rfl) (by simp)
  · exact fun _ _ _ _ => trivial

end Runs

/-! ### When the loop waits for ever -/

section Returns

variable {older : List ControlSocket} {x : ControlSocket} {session : SecureSession}

/-- A stuck attempt keeps the loop where it is. -/
theorem stuck_loop_step (hphase : s.phase = .connecting) (hs : s.sockets = older ++ [x])
    (hx : x.state.phase = .reopening session) (hclosed : x.state.readyState = .closed)
    (ho : LoopOrderly turns s t) : (s.step p t).phase = .connecting ∧
      ∃ older', (s.step p t).sockets = older' ++ [x] ∧ older'.length = older.length := by
  unfold ControlLoop.step
  unfold LoopOrderly at ho
  rcases ht : t.event with start | ⟨n, event⟩ | _ <;> rw [ht] at ho <;> dsimp only at ho ⊢
  · have hidle : s.onPrepared t start = s := by simp [ControlLoop.onPrepared, hphase]
    rw [hidle]
    exact ⟨hphase, older, hs, rfl⟩
  · obtain ⟨y, hy, horderly⟩ := ho
    rw [onSocket_some hy]
    rw [hs] at hy ⊢
    rcases last_or_older hy with ⟨rfl, rfl⟩ | ⟨hlt, -⟩
    · have hsame : x.next p t event = x := by
        unfold ControlSocket.next
        have ho' : Tunnel.Orderly (turnsOf older.length turns) x.state (t.connectTurn event) := horderly
        rw [step_of_stuck hx hclosed ho']
      rw [if_pos (by simp), hsame, set_last]
      have hidle : ControlLoop.settle p { s with sockets := older ++ [x] } t x =
          { s with sockets := older ++ [x] } := by simp [ControlLoop.settle, hphase, hx]
      rw [hidle]
      exact ⟨hphase, older, rfl, rfl⟩
    · rw [if_neg (by simp; omega), set_older hlt]
      exact ⟨hphase, older.set n (y.next p t event), rfl, List.length_set⟩
  · have hidle : s.onWoke = s := by simp [ControlLoop.onWoke, hphase]
    rw [hidle]
    exact ⟨hphase, older, hs, rfl⟩

theorem stuck_loop_run (hphase : (run (ControlLoop.step p) {} turns).phase = .connecting)
    (hs : (run (ControlLoop.step p) {} turns).sockets = older ++ [x]) (hx : x.state.phase = .reopening session)
    (hclosed : x.state.readyState = .closed) (later : List LoopTurn) (h : LoopRun p (turns ++ later)) :
    (run (ControlLoop.step p) {} (turns ++ later)).phase = .connecting ∧
      ∃ older', (run (ControlLoop.step p) {} (turns ++ later)).sockets = older' ++ [x] ∧
        older'.length = older.length := by
  induction later using List.reverseRecOn with
  | nil =>
    rw [List.append_nil]
    exact ⟨hphase, older, hs, rfl⟩
  | append_singleton later t ih =>
    rw [← List.append_assoc] at h ⊢
    obtain ⟨hphase', older', hs', hlen⟩ := ih h.init
    rw [run_concat]
    obtain ⟨hnext, older'', hs'', hlen'⟩ := stuck_loop_step hphase' hs' hx hclosed h.last
    exact ⟨hnext, older'', hs'', hlen'.trans hlen⟩

/-- Where the loop stands when its current socket has closed and the attempt on it has seen that. -/
theorem place_of_closed (hs : (run (ControlLoop.step p) {} turns).sockets = older ++ [x])
    (hends : x.state.phase.endsWithSocket = false) :
    ((run (ControlLoop.step p) {} turns).phase = .connecting ↔ x.state.phase.isWaiting = true) ∧
      (run (ControlLoop.step p) {} turns).phase ≠ .serving := by
  have hlast : ∀ {older' : List ControlSocket} {y : ControlSocket},
      (run (ControlLoop.step p) {} turns).sockets = older' ++ [y] → y = x := by
    intro older' y hy
    obtain ⟨-, hyx⟩ := List.append_inj' (hy.symm.trans hs) rfl
    exact (List.cons.inj hyx).1
  rcases place_run (p := p) turns with ⟨phase, left⟩ | ⟨phase, sockets, -, waiting, -⟩ | ⟨-, sockets, -, serves⟩
  · have hleft : x.state.phase.isWaiting = false := (left x (by rw [hs]; simp)).1
    rw [hleft]
    rcases phase with phase | ⟨d, phase⟩ <;> rw [phase] <;> simp
  · rw [hlast sockets] at waiting
    exact ⟨iff_of_true phase waiting, by rw [phase]; simp⟩
  · rw [hlast sockets] at serves
    exact absurd (hends.symm.trans (endsWithSocket_of_session serves)) (by simp)

/-- **When the loop waits for ever.** Once the current socket has closed, the loop is between two attempts, unless
the session of the current one is still being derived or the attempt is stuck. Behind a stuck attempt the loop never
makes another one. -/
theorem control_loop_returns (h : LoopRun p turns)
    (hs : (run (ControlLoop.step p) {} turns).sockets = older ++ [x]) (hclosed : x.state.readyState = .closed) :
    ((run (ControlLoop.step p) {} turns).phase = .connecting ↔ x.state.phase.isDeriving = true ∨
      ∃ session, Stuck p x.start.options x.start.handshake (turnsOf older.length turns) session) ∧
    (run (ControlLoop.step p) {} turns).phase ≠ .serving ∧
    ∀ session, Stuck p x.start.options x.start.handshake (turnsOf older.length turns) session →
      ∀ later, LoopRun p (turns ++ later) → (run (ControlLoop.step p) {} (turns ++ later)).phase = .connecting ∧
        (run (ControlLoop.step p) {} (turns ++ later)).sockets.length = older.length + 1 := by
  have hlast : (run (ControlLoop.step p) {} turns).sockets[older.length]? = some x := by
    rw [hs]
    simp
  have hfollows := follows_run h
  have hrun := hfollows.orderly hlast
  have hstate := hfollows.state hlast
  have hends : x.state.phase.endsWithSocket = false := by
    rw [hstate] at hclosed ⊢
    exact ends_of_closed hrun hclosed
  obtain ⟨hconnecting, hserving⟩ := place_of_closed hs hends
  have hstuck := connect_stuck hrun (hstate ▸ hclosed)
  rw [← hstate] at hstuck
  refine ⟨hconnecting.trans hstuck.1, hserving, ?_⟩
  intro session hsession later hlater
  have hphase : x.state.phase = .reopening session := by
    rw [hstate]
    exact reopening_of_stuck hrun hsession
  have hwaiting := hconnecting.mpr (by rw [hphase]; rfl)
  obtain ⟨hnext, older', hs', hlen⟩ := stuck_loop_run hwaiting hs hphase hclosed later hlater
  refine ⟨hnext, ?_⟩
  rw [hs', List.length_append, hlen]
  rfl

end Returns

/-! ### One client at a time, and the delays -/

section Order

def retriesAfter (k : ℕ) : LoopNote → ℕ
  | .connected => 0
  | .reconnectScheduled _ _ => k + 1
  | _ => k

/-- How many attempts the loop has scheduled since it was connected last. -/
def retries (notes : List LoopNote) : ℕ := notes.foldl retriesAfter 0

/-- What a turn writes to the log. -/
inductive Notes (s s' : ControlLoop) : Prop
  | same (notes : s'.notes = s.notes) (attempt : s'.attempt = s.attempt)
  | started {k : ℕ} (notes : s'.notes = s.notes ++ [.connectStart k]) (attempt : s'.attempt = s.attempt)
  | connected (notes : s'.notes = s.notes ++ [.connected]) (attempt : s'.attempt = 0)
  | ended {note : LoopNote} {j : Fin 500} (quiet : note = .closed ∨ note = .connectFailed)
      (notes : s'.notes = s.notes ++ [note] ++
        [.reconnectScheduled (s.attempt + 1) (reconnectDelayMs (s.attempt + 1) j)])
      (attempt : s'.attempt = s.attempt + 1)

theorem notes_retry {note : LoopNote} (h : note = .closed ∨ note = .connectFailed) : Notes s (s.retry t note) :=
  .ended (j := t.jitter) h (by simp [ControlLoop.retry]) rfl

theorem notes_settle (y : ControlSocket) : Notes s (s.settle p t y) := by
  unfold ControlLoop.settle
  split
  · split
    · exact notes_retry (.inr rfl)
    · exact .connected rfl rfl
  · exact notes_retry (.inr rfl)
  · exact notes_retry (.inl rfl)
  · exact .same rfl rfl

theorem notes_step (s : ControlLoop) (t : LoopTurn) : Notes s (s.step p t) := by
  unfold ControlLoop.step
  rcases t.event with start | ⟨n, event⟩ | _ <;> dsimp only
  · unfold ControlLoop.onPrepared
    split
    · exact notes_retry (.inr rfl)
    · exact .same rfl rfl
    · exact .same rfl rfl
  · rcases hx : s.sockets[n]? with _ | x
    · unfold ControlLoop.onSocket
      rw [hx]
      exact .same rfl rfl
    · rw [onSocket_some hx]
      split_ifs
      · rcases notes_settle (p := p) (t := t) (s := { s with sockets := s.sockets.set n (x.next p t event) })
          (x.next p t event) with ⟨notes, attempt⟩ | ⟨notes, attempt⟩ | ⟨notes, attempt⟩ | ⟨quiet, notes, attempt⟩
        · exact .same notes attempt
        · exact .started notes attempt
        · exact .connected notes attempt
        · exact .ended quiet notes attempt
      · exact .same rfl rfl
  · unfold ControlLoop.onWoke
    split
    · exact .started rfl rfl
    · exact .same rfl rfl

/-- The number of an attempt counts the attempts since the last connection, and its delay goes with it. -/
structure Delays (s : ControlLoop) : Prop where
  attempt : s.attempt = retries s.notes
  delays : ∀ {l a d r}, s.notes = l ++ .reconnectScheduled a d :: r →
    a = retries l + 1 ∧ ∃ j, d = reconnectDelayMs a j

theorem concat_split {notes l r : List LoopNote} {n m : LoopNote} (h : notes ++ [n] = l ++ m :: r) :
    (n = m ∧ l = notes) ∨ ∃ r', notes = l ++ m :: r' := by
  rcases List.eq_nil_or_concat r with rfl | ⟨r', k, rfl⟩
  · obtain ⟨hl, hn⟩ := List.append_inj' h rfl
    exact .inl ⟨(List.cons.inj hn).1, hl.symm⟩
  · rw [List.concat_eq_append] at h
    have hsplit : notes ++ [n] = (l ++ m :: r') ++ [k] := by rw [h]; simp
    exact .inr ⟨r', (List.append_inj' hsplit rfl).1⟩

theorem delays_concat {s' : ControlLoop} {n : LoopNote} (h : Delays s) (hnotes : s'.notes = s.notes ++ [n])
    (hn : ∀ a d, n ≠ .reconnectScheduled a d) (hattempt : s'.attempt = retriesAfter s.attempt n) : Delays s' := by
  refine ⟨?_, ?_⟩
  · rw [hattempt, hnotes, h.attempt]
    unfold retries
    rw [List.foldl_append]
    rfl
  · intro l a d r hsplit
    rw [hnotes] at hsplit
    rcases concat_split hsplit with ⟨heq, -⟩ | ⟨r', hr⟩
    · exact absurd heq (hn a d)
    · exact h.delays hr

theorem delays_step (h : Delays s) (t : LoopTurn) : Delays (s.step p t) := by
  rcases notes_step (p := p) s t with ⟨notes, attempt⟩ | ⟨notes, attempt⟩ | ⟨notes, attempt⟩ |
    ⟨quiet, notes, attempt⟩
  · refine ⟨?_, ?_⟩
    · rw [attempt, notes]
      exact h.attempt
    · intro l a d r hsplit
      exact h.delays (notes ▸ hsplit)
  · exact delays_concat h notes (by simp) attempt
  · exact delays_concat h notes (by simp) attempt
  · rename_i note j
    have hbefore : Delays { s with notes := s.notes ++ [note] } := by
      rcases quiet with rfl | rfl
      · exact delays_concat h rfl (by simp) rfl
      · exact delays_concat h rfl (by simp) rfl
    have hcount : s.attempt = retries (s.notes ++ [note]) := hbefore.attempt
    refine ⟨?_, ?_⟩
    · rw [attempt, notes]
      unfold retries at hcount ⊢
      rw [List.foldl_append, ← hcount]
      rfl
    · intro l a d r hsplit
      rw [notes] at hsplit
      rcases concat_split hsplit with ⟨heq, rfl⟩ | ⟨r', hr⟩
      · cases heq
        exact ⟨congrArg (· + 1) hcount, j, rfl⟩
      · exact hbefore.delays hr

theorem reconnectDelayMs_bounds (k : ℕ) (j : Fin 500) :
    min 30000 (1000 * 2 ^ min k 5) ≤ reconnectDelayMs (k + 1) j ∧
      reconnectDelayMs (k + 1) j < min 30000 (1000 * 2 ^ min k 5) + 500 := by
  have hcapped : min (k + 1) 6 = min k 5 + 1 := by omega
  have hhalf : 1000 * 2 ^ (min k 5 + 1) / 2 = 1000 * 2 ^ min k 5 := by
    rw [pow_succ, ← Nat.mul_assoc]
    exact Nat.mul_div_cancel _ (by norm_num)
  unfold reconnectDelayMs
  dsimp only
  rw [hcapped, hhalf]
  have hj := j.isLt
  omega

theorem delays_run (turns : List LoopTurn) : Delays (run (ControlLoop.step p) {} turns) := by
  refine run_induct (C := fun _ _ _ => True) (J := fun _ s => Delays s) ?_ (fun pre t h _ => delays_step h t) ?_
  · refine ⟨rfl, ?_⟩
    intro l a d r hsplit
    have hmem : LoopNote.reconnectScheduled a d ∈ ({} : ControlLoop).notes := by
      rw [hsplit]
      simp
    exact absurd hmem (by simp)
  · exact fun _ _ _ _ => trivial

theorem ControlSocket.not_left {x : ControlSocket}
    (h : x.state.phase.isWaiting = true ∨ x.state.phase.session?.isSome = true ∧ x.heartbeat.isSome = true) :
    ¬ x.Left := by
  rintro ⟨hended, hsilent⟩
  rcases h with hwaiting | ⟨hserves, hreports⟩
  · exact absurd (hended.symm.trans hwaiting) (by simp)
  · rw [hsilent hserves] at hreports
    cases hreports

/-- Where all older sockets are left, another one is the last. -/
theorem length_of_not_left {sockets older : List ControlSocket} {x y : ControlSocket} {n : ℕ}
    (hs : sockets = older ++ [y]) (left : ∀ z ∈ older, z.Left) (hx : sockets[n]? = some x) (hnot : ¬ x.Left) :
    n + 1 = sockets.length := by
  have hbound := (List.getElem?_eq_some_iff.mp hx).1
  rw [hs] at hx hbound ⊢
  rw [List.length_append, List.length_singleton] at hbound ⊢
  by_contra hne
  have hlt : n < older.length := by omega
  rw [List.getElem?_append_left hlt] at hx
  exact hnot (left x (List.mem_of_getElem? hx))

/-- **One client at a time, and the delays between them.** In every run of the loop only the last socket can have
an attempt under way or a client that reports, and after `k` retries in a row the next one waits
`min(30000, 1000 * 2 ** min(k, 5))` milliseconds and less than half a second more. -/
theorem one_control_client (turns : List LoopTurn) :
    (∀ {n x}, (run (ControlLoop.step p) {} turns).sockets[n]? = some x → x.state.phase.isWaiting = true ∨
      x.state.phase.session?.isSome = true ∧ x.heartbeat.isSome = true →
      n + 1 = (run (ControlLoop.step p) {} turns).sockets.length) ∧
    ∀ {l a d r}, (run (ControlLoop.step p) {} turns).notes = l ++ .reconnectScheduled a d :: r →
      a = retries l + 1 ∧ min 30000 (1000 * 2 ^ min (retries l) 5) ≤ d ∧
        d < min 30000 (1000 * 2 ^ min (retries l) 5) + 500 := by
  refine ⟨?_, ?_⟩
  · intro n x hx hcurrent
    have hnot := ControlSocket.not_left hcurrent
    rcases place_run (p := p) turns with ⟨-, left⟩ | ⟨-, sockets, left⟩ | ⟨-, sockets, left⟩
    · exact absurd (left x (List.mem_of_getElem? hx)) hnot
    · exact length_of_not_left sockets left hx hnot
    · exact length_of_not_left sockets left hx hnot
  · intro l a d r hnotes
    obtain ⟨rfl, j, rfl⟩ := (delays_run turns).delays hnotes
    exact ⟨rfl, reconnectDelayMs_bounds (retries l) j⟩

end Order

namespace Sample

def controlStart : ControlStart where
  gatewayUrl := js "wss://gateway.example/node/tunnel"
  nodeId := js "node-1"
  version := js "1.4.0"
  publicKeyPem := Tunnel.Sample.publicPem
  handshake := Handshake.Sample.client

def loopTurn (event : LoopEvent) : LoopTurn where
  event := event
  now := Tunnel.Sample.helloNow
  helloNonce := Tunnel.Sample.helloNonce
  heartbeatNonce := []
  uptimeSeconds := 0
  capabilities := .null
  jitter := 0

/-- The server leaves while the session of the first attempt is derived. -/
def stuckLoop : List LoopTurn :=
  loopTurn (.prepared (.ok controlStart)) ::
    [.socket .opened, .socket (.message Tunnel.Sample.acceptData), .socket .closing, .derived, .socket .closed].map
      fun event => loopTurn (.socket 0 event)

theorem stuckLoop_run : LoopRun Tunnel.Sample.connectPlatform stuckLoop ∧
    (run (ControlLoop.step Tunnel.Sample.connectPlatform) {} stuckLoop).phase = .connecting ∧
    (run (ControlLoop.step Tunnel.Sample.connectPlatform) {} stuckLoop).sockets.map (fun x => x.state.readyState) =
      [.closed] ∧
    (run (ControlLoop.step Tunnel.Sample.connectPlatform) {} stuckLoop).sockets.map
      (fun x => x.state.phase.isDeriving) = [false] := by
  unfold LoopRun
  decide +kernel

theorem never_reconnects :
    (run (ControlLoop.step Tunnel.Sample.connectPlatform) {} stuckLoop).phase = .connecting ∧
    ∀ later, LoopRun Tunnel.Sample.connectPlatform (stuckLoop ++ later) →
      (run (ControlLoop.step Tunnel.Sample.connectPlatform) {} (stuckLoop ++ later)).phase = .connecting ∧
      (run (ControlLoop.step Tunnel.Sample.connectPlatform) {} (stuckLoop ++ later)).sockets.length = 1 := by
  obtain ⟨hrun, hphase, hstates, hderiving⟩ := stuckLoop_run
  obtain ⟨x, hs, hclosed⟩ := List.map_eq_singleton_iff.mp hstates
  rw [hs, List.map_singleton] at hderiving
  obtain ⟨hiff, -, hever⟩ := control_loop_returns hrun (show _ = [] ++ [x] from hs) hclosed
  rcases hiff.mp hphase with hd | ⟨session, hstuck⟩
  · exact absurd ((List.cons.inj hderiving).1.symm.trans hd) (by simp)
  · exact ⟨hphase, hever session hstuck⟩

end Sample

end ConsensusNode.Clients
