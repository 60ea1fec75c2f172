import ConsensusNode.Clients.ControlRequests
import ConsensusNode.Lib.Run

/-! # Every request is answered

* `handle_session`: of the events of the streams only `STREAM_DATA` runs a request, and counts it.
* `does_step`: what one turn does to the handlers.
* `requests_counted`: what `activeRequests` counts, in every run.
* `every_request_answered`: in every run each request makes its own call and is answered by the end of this call. -/

namespace ConsensusNode.Clients

open Js Lib Lib.Run ConsensusNode.Runtime

variable (p : Platform)

/-! ### What the streams run -/

section Streams

variable {p} {c : ControlState}

/-- A step that runs no request and leaves the count alone. -/
structure RunsNone (c : ControlState) (out : ControlState × List ControlEffect) : Prop where
  session : sessionData? out.2 = none
  count : out.1.activeRequests = c.activeRequests

theorem sessionData?_sendFrame (owner : JsString) (type : PublicTunnelFrame) (k : ℕ) (payload : Bytes) :
    sessionData? (sendFrame owner type k payload) = none := by
  unfold sendFrame
  split <;> rfl

theorem activeRequests_cleanup (sid : JsString) :
    (c.cleanupPublicTunnelStream sid).activeRequests = c.activeRequests := by
  unfold ControlState.cleanupPublicTunnelStream
  split <;> rfl

theorem runsNone_open (sid : JsString) (target : Option JsString) : RunsNone c (c.handleOpen p sid target) := by
  unfold ControlState.handleOpen
  split_ifs
  · exact ⟨rfl, rfl⟩
  · split
    · exact ⟨rfl, rfl⟩
    · unfold ControlState.openPublicStream
      dsimp only
      split
      · exact ⟨rfl, rfl⟩
      · exact ⟨sessionData?_sendFrame _ _ _ _, rfl⟩
    · exact ⟨rfl, rfl⟩
    · exact ⟨rfl, rfl⟩
    · split
      · exact ⟨rfl, rfl⟩
      · exact ⟨rfl, rfl⟩

theorem runsNone_ownerFrame (o : TunnelOwner) (f : DecodedFrame) : RunsNone c (c.handleOwnerFrame o f) := by
  unfold ControlState.handleOwnerFrame
  split
  · exact ⟨sessionData?_sendFrame o.streamId .pong 0 [], rfl⟩
  split
  · exact ⟨rfl, rfl⟩
  split
  · exact ⟨rfl, rfl⟩
  · exact ⟨rfl, rfl⟩
  · split
    · exact ⟨rfl, rfl⟩
    split
    · exact ⟨rfl, activeRequests_cleanup _⟩
    split
    · exact ⟨rfl, activeRequests_cleanup _⟩
    · exact ⟨rfl, rfl⟩

theorem sessionData?_map {α : Type} {f : α → ControlEffect}
    (h : ∀ x, ∀ sid d, f x ≠ .executeProxySessionMessage sid d) (l : List α) :
    sessionData? (l.map f) = none := by
  unfold sessionData?
  rw [List.findSome?_eq_none_iff]
  intro e he
  obtain ⟨x, -, rfl⟩ := List.mem_map.mp he
  split
  · rename_i sid d hx
    exact absurd hx (h x sid d)
  · rfl

theorem runsNone_close (sid : JsString) : RunsNone c (c.handleClose sid) := by
  unfold ControlState.handleClose
  split
  · exact ⟨sessionData?_map (by simp) _, rfl⟩
  · split
    · split
      · exact ⟨rfl, activeRequests_cleanup _⟩
      · split
        · exact ⟨rfl, rfl⟩
        · exact ⟨rfl, activeRequests_cleanup _⟩
    · split_ifs <;> exact ⟨rfl, rfl⟩

/-- `STREAM_DATA` runs its data as a request and counts it, or does neither. -/
theorem data_session (sid d : JsString) : RunsNone c (c.handleData sid d) ∨
    (sessionData? (c.handleData sid d).2 = some (sid, decodeBase64 d) ∧
      (c.handleData sid d).1.activeRequests = c.activeRequests + 1) := by
  unfold ControlState.handleData
  split
  · split
    · exact .inl (runsNone_ownerFrame _ _)
    · exact .inl ⟨rfl, rfl⟩
  · split
    · split
      · exact .inl ⟨rfl, activeRequests_cleanup _⟩
      · exact .inl ⟨sessionData?_sendFrame _ _ _ _, rfl⟩
    · split_ifs
      · exact .inl ⟨rfl, rfl⟩
      · exact .inl ⟨rfl, rfl⟩
      · exact .inr ⟨rfl, rfl⟩

/-- The event is the end of a handler. -/
def ControlEvent.isExecuted : ControlEvent → Bool
  | .executed _ _ => true
  | _ => false

/-- **Of the events of the streams only `STREAM_DATA` runs a request, and counts it.** -/
theorem handle_session {e : ControlEvent} (he : e.isExecuted = false) : RunsNone c (c.handle p e) ∨
    ∃ sid d, e = .streamData sid d ∧ sessionData? (c.handle p e).2 = some (sid, decodeBase64 d) ∧
      (c.handle p e).1.activeRequests = c.activeRequests + 1 := by
  rcases e with ⟨sid, target⟩ | ⟨sid, d⟩ | ⟨sid⟩ | ⟨sid, d⟩ | ⟨sid⟩ | ⟨sid, m⟩ | ⟨sid⟩ | ⟨sid, o⟩ | _
  · exact .inl (runsNone_open sid target)
  · rcases data_session (c := c) sid d with h | h
    · exact .inl h
    · exact .inr ⟨sid, d, rfl, h⟩
  · exact .inl (runsNone_close sid)
  · exact .inl ⟨rfl, rfl⟩
  · left
    show RunsNone c (if c.rawStreams.has sid then _ else _)
    split_ifs <;> exact ⟨rfl, rfl⟩
  · exact .inl ⟨rfl, rfl⟩
  · exact .inl ⟨rfl, rfl⟩
  · cases he
  · refine .inl ⟨?_, rfl⟩
    show sessionData? (c.rawStreams.keys.map .socketDestroy ++ _) = none
    unfold sessionData?
    rw [List.findSome?_append]
    have hraw := sessionData?_map (f := .socketDestroy) (by simp) c.rawStreams.keys
    have hplane := sessionData?_map (f := fun id => .dataPlaneFail id (js "connection closed")) (by simp)
      c.dataPlaneStreams.keys
    unfold sessionData? at hraw hplane
    rw [hraw, hplane]
    rfl

end Streams

/-! ### One turn -/

/-- The turn brings a request: its handler, and the handler's code up to the call. -/
inductive Receives (s : RequestState) (t : RequestTurn) : Handler → Except Outcome RequestCall → Prop
  | proxy {message : Json} (h : t.event = .proxyRequest message) :
      Receives s t (.proxy (message.field? (js "id"))) (startProxy p t.surroundings.native message)
  | eval {message : Json} (h : t.event = .evalRequest message) :
      Receives s t (.eval (message.field? (js "id")) (message.field? (js "action")))
        (startEval t.surroundings.native message)
  | session {streamId data : JsString} (h : t.event = .stream (.streamData streamId data))
      (runs : sessionData? (s.control.handleData streamId data).2 = some (streamId, decodeBase64 data)) :
      Receives s t (.session streamId (sessionRequest (decodeBase64 data)))
        (startSession p t.surroundings.native (sessionRequest (decodeBase64 data)))

/-- The handler of a `PROXY_REQUEST` throws before its `try` block, and stays counted. -/
def RequestTurn.abandons (t : RequestTurn) : Bool :=
  match t.event with
  | .proxyRequest message => sanitizeUrlThrows p (message.field? (js "target_url"))
  | _ => false

/-- The call that an event ends. -/
def RequestEvent.ends? : RequestEvent → Option ℕ
  | .served n _ => some n
  | .evaluated n _ => some n
  | _ => none

theorem ends?_of_outcome {h : Handler} {n : ℕ} {e : RequestEvent} {o : Outcome} (ho : h.outcome? n e = some o) :
    e.ends? = some n := by
  unfold Handler.outcome? at ho
  split at ho
  · split_ifs at ho with hn
    exact congrArg some hn
  · split_ifs at ho with hn
    exact congrArg some hn
  · cases ho
  · split_ifs at ho with hn
    exact congrArg some hn
  · split_ifs at ho with hn
    exact congrArg some hn
  · cases ho

/-- The handlers do not see the turn. -/
structure Passes (s s' : RequestState) : Prop where
  jobs : s'.jobs = s.jobs
  calls : s'.calls = s.calls

/-- What a turn does. -/
inductive TurnDoes (s : RequestState) (t : RequestTurn) : RequestState → Prop
  | passes {s' : RequestState} (same : Passes s s')
      (count : s'.control.activeRequests = s.control.activeRequests) (abandons : t.abandons p = false)
      (ends : ∀ n h, s.jobs.running.get? n = some h → h.outcome? n t.event = none) : TurnDoes s t s'
  | begins {s₀ : RequestState} {h : Handler} {start : Except Outcome RequestCall} (received : Receives p s t h start)
      (same : Passes s s₀)
      (count : s₀.control.activeRequests = s.control.activeRequests + if h.isCounted then 1 else 0) :
      TurnDoes s t (s₀.begin t.surroundings h start)
  | ends {n : ℕ} {h : Handler} {o : Outcome} (running : s.jobs.running.get? n = some h)
      (outcome : h.outcome? n t.event = some o) : TurnDoes s t (s.finish n ⟨h, o, t.surroundings⟩)

section Turn

variable {p} {s : RequestState} {t : RequestTurn}

theorem does_end {n : ℕ} (hends : t.event.ends? = some n) (hstep : s.step p t = s.handleEnd t.surroundings n t.event)
    (habandons : t.abandons p = false) : TurnDoes p s t (s.step p t) := by
  have hother : ∀ {m h}, m ≠ n → Handler.outcome? h m t.event = none := by
    intro m h hm
    rcases ho : h.outcome? m t.event with _ | o
    · rfl
    · exact absurd (Option.some.inj ((ends?_of_outcome ho).symm.trans hends)) hm
  rw [hstep]
  unfold RequestState.handleEnd
  split
  · rename_i hidle
    refine .passes ⟨rfl, rfl⟩ rfl habandons fun m h hrun => hother ?_
    rintro rfl
    exact absurd (hidle.symm.trans hrun) (by simp)
  · rename_i h hrun
    split
    · rename_i hnone
      refine .passes ⟨rfl, rfl⟩ rfl habandons fun m h' hrun' => ?_
      by_cases hm : m = n
      · subst hm
        obtain rfl := Option.some.inj (hrun.symm.trans hrun')
        exact hnone
      · exact hother hm
    · rename_i o ho
      exact .ends hrun ho

theorem does_stream {e : ControlEvent} (he : t.event = .stream e) : TurnDoes p s t (s.step p t) := by
  have hnone : ∀ n h, s.jobs.running.get? n = some h → h.outcome? n t.event = none := by
    intro n h _
    rcases ho : h.outcome? n t.event with _ | o
    · rfl
    · have hends := ends?_of_outcome ho
      rw [he] at hends
      cases hends
  have habandons : t.abandons p = false := by
    unfold RequestTurn.abandons
    rw [he]
  have hstep : s.step p t = s.handleStream p t.surroundings e := by
    unfold RequestState.step
    rw [he]
  rw [hstep]
  unfold RequestState.handleStream
  split
  · exact .passes ⟨rfl, rfl⟩ rfl habandons hnone
  · rename_i hne
    have hnot : e.isExecuted = false := by
      unfold ControlEvent.isExecuted
      split
      · rename_i sid out
        exact (hne sid out rfl).elim
      · rfl
    dsimp only
    rcases handle_session (p := p) (c := s.control) hnot with hruns | ⟨sid, d, rfl, hdata, hcount⟩
    · rw [hruns.session]
      exact .passes ⟨rfl, rfl⟩ hruns.count habandons hnone
    · rw [hdata]
      exact .begins (.session he hdata) ⟨rfl, rfl⟩ hcount

/-- **A turn brings a request, ends the call of a handler, or does not touch the handlers.** -/
theorem does_step (s : RequestState) (t : RequestTurn) : TurnDoes p s t (s.step p t) := by
  obtain ⟨event, w⟩ := t
  rcases event with message | message | e | ⟨n, outcome⟩ | ⟨n, outcome⟩
  · have hsame : Passes s s.addRequest := ⟨rfl, rfl⟩
    exact .begins (.proxy rfl) hsame rfl
  · have hsame : Passes s s := ⟨rfl, rfl⟩
    exact .begins (.eval rfl) hsame rfl
  · exact does_stream rfl
  · exact does_end rfl rfl rfl
  · exact does_end rfl rfl rfl

end Turn

/-! ### The count -/

def Outcome.isThrown : Outcome → Bool
  | .threw _ => true
  | _ => false

/-- The end of the handler takes it out of the count. -/
def Ending.leaves (e : Ending) : Bool := e.handler.isCounted && !e.outcome.isThrown

section Count

variable {p} {s : RequestState} {t : RequestTurn}

@[simp] theorem finish_jobs (n : ℕ) (e : Ending) : (s.finish n e).jobs = s.jobs.finish Ending.reply n e := by
  unfold RequestState.finish
  split <;> rfl

@[simp] theorem finish_calls (n : ℕ) (e : Ending) : (s.finish n e).calls = s.calls := by
  unfold RequestState.finish
  split <;> rfl

theorem count_finish (n : ℕ) (e : Ending) :
    (s.finish n e).control.activeRequests = s.control.activeRequests - if e.leaves then 1 else 0 := by
  obtain ⟨h, o, w⟩ := e
  rcases h with id | ⟨id, action⟩ | ⟨sid, request⟩
  · rcases o with r | r | m | m | m <;> rfl
  · rfl
  · rcases o with r | r | m | m | m <;> rfl

theorem isThrown_of_outcome {h : Handler} {n : ℕ} {e : RequestEvent} {o : Outcome} (ho : h.outcome? n e = some o) :
    o.isThrown = false := by
  unfold Handler.outcome? at ho
  split at ho
  · split_ifs at ho
    cases ho
    rfl
  · split_ifs at ho
    cases ho
    rfl
  · cases ho
  · split_ifs at ho
    cases ho
    rfl
  · split_ifs at ho
    cases ho
    rfl
  · cases ho

theorem startCommand_error {native : JsString} {message : ProxyRequestMessage} {o : Outcome}
    (h : startCommand p native message = .error o) : o.isThrown = false := by
  unfold startCommand at h
  split at h
  · cases h
  · cases h
    rfl

/-- A counted handler that makes a call has not thrown. -/
theorem abandons_of_call {h : Handler} {call : RequestCall} (hr : Receives p s t h (.ok call)) :
    t.abandons p = false := by
  generalize hstart : Except.ok call = start at hr
  unfold RequestTurn.abandons
  rcases hr with ⟨he⟩ | ⟨he⟩ | ⟨he, -⟩
  · rw [he]
    dsimp only
    unfold startProxy at hstart
    split_ifs at hstart with hthrows
    exact Bool.eq_false_iff.mpr hthrows
  · rw [he]
  · rw [he]

/-- A counted handler that makes no call has thrown before its `try` block, or not. -/
theorem abandons_of_error {h : Handler} {o : Outcome} (hr : Receives p s t h (.error o)) :
    t.abandons p = (h.isCounted && o.isThrown) := by
  generalize hstart : Except.error o = start at hr
  unfold RequestTurn.abandons
  rcases hr with ⟨he⟩ | ⟨he⟩ | ⟨he, -⟩
  · rw [he]
    dsimp only [Handler.isCounted]
    unfold startProxy at hstart
    split_ifs at hstart with hthrows
    · cases hstart
      exact hthrows
    · rw [Bool.true_and, startCommand_error hstart.symm]
      exact Bool.eq_false_iff.mpr hthrows
  · rw [he]
    rfl
  · rw [he]
    have hthrown : o.isThrown = false := by
      unfold startSession at hstart
      split at hstart
      · exact startCommand_error hstart.symm
      · cases hstart
        rfl
    rw [hthrown, Bool.and_false]

theorem abandons_of_ends {n : ℕ} (h : t.event.ends? = some n) : t.abandons p = false := by
  unfold RequestTurn.abandons
  split
  · rename_i message he
    rw [he] at h
    cases h
  · rfl

/-- What `activeRequests` counts: the counted handlers that wait, and those that have thrown before their `try`
block. -/
structure Counted (turns : List RequestTurn) (s : RequestState) : Prop where
  sound : s.jobs.Sound Ending.reply
  count : s.control.activeRequests = s.jobs.active Handler.isCounted + turns.countP (RequestTurn.abandons p)

theorem counted_step {turns : List RequestTurn} (h : Counted (p := p) turns s) (t : RequestTurn) :
    Counted (p := p) (turns ++ [t]) (s.step p t) := by
  have hcount := h.count
  have hconcat : (turns ++ [t]).countP (RequestTurn.abandons p) =
      turns.countP (RequestTurn.abandons p) + if t.abandons p then 1 else 0 := by
    rw [List.countP_append, List.countP_singleton]
  generalize hs : s.step p t = s'
  have hdoes : TurnDoes p s t s' := hs ▸ does_step s t
  rcases hdoes with ⟨same, hsame, habandons, -⟩ | ⟨hr, same, hadd⟩ | ⟨hrun, ho⟩
  · refine ⟨same.jobs ▸ h.sound, ?_⟩
    rw [hconcat, habandons, hsame, same.jobs, hcount]
    rfl
  · rename_i s₀ handler start
    have hsound : s₀.jobs.Sound Ending.reply := same.jobs ▸ h.sound
    have hstarted := Jobs.active_start (a := handler) (k := Handler.isCounted) hsound
    rw [same.jobs] at hstarted
    rcases start with o | call
    · have hrun : (s₀.jobs.start handler).running.get? s₀.jobs.next = some handler := OrdMap.get?_set_self _ _ _
      have hfinished := Jobs.active_finish (k := Handler.isCounted) hrun Ending.reply ⟨handler, o, t.surroundings⟩
      have hleft := count_finish (s := { s₀ with jobs := s₀.jobs.start handler }) s₀.jobs.next
        ⟨handler, o, t.surroundings⟩
      have habandons := abandons_of_error hr
      refine ⟨?_, ?_⟩
      · show (RequestState.finish _ _ _).jobs.Sound Ending.reply
        rw [finish_jobs]
        exact (hsound.start handler).finish (Option.isSome_iff_exists.mpr ⟨handler, hrun⟩) _
      · show (RequestState.finish _ _ _).control.activeRequests = (RequestState.finish _ _ _).jobs.active _ + _
        rw [hconcat, habandons, hleft, finish_jobs]
        rw [same.jobs] at hfinished ⊢
        unfold Ending.leaves
        dsimp only
        rcases hcounted : handler.isCounted <;> rcases hthrown : o.isThrown <;>
          simp only [hcounted, Bool.and_true, Bool.and_false, Bool.not_true, Bool.not_false, if_true,
            Bool.false_eq_true, if_false] at hstarted hfinished hadd ⊢ <;> omega
    · refine ⟨hsound.start handler, ?_⟩
      show s₀.control.activeRequests = (s₀.jobs.start handler).active _ + _
      rw [hconcat, abandons_of_call hr, same.jobs, hstarted, hadd, hcount]
      simp
      omega
  · rename_i n handler o
    have habandons : t.abandons p = false := abandons_of_ends (ends?_of_outcome ho)
    have hfinished := Jobs.active_finish (k := Handler.isCounted) hrun Ending.reply ⟨handler, o, t.surroundings⟩
    have hleft := count_finish (s := s) n ⟨handler, o, t.surroundings⟩
    have hleaves : Ending.leaves ⟨handler, o, t.surroundings⟩ = handler.isCounted := by
      unfold Ending.leaves
      rw [isThrown_of_outcome ho]
      exact Bool.and_true _
    refine ⟨?_, ?_⟩
    · rw [finish_jobs]
      exact h.sound.finish (Option.isSome_iff_exists.mpr ⟨handler, hrun⟩) _
    · rw [hconcat, habandons, hleft, finish_jobs, hleaves]
      simp only [Bool.false_eq_true, if_false]
      omega

theorem counted_run (turns : List RequestTurn) :
    Counted (p := p) turns (run (RequestState.step p) {} turns) := by
  refine run_induct (C := fun _ _ _ => True) (J := fun turns s => Counted (p := p) turns s)
    ⟨Jobs.sound_empty, rfl⟩ (fun pre t h _ => counted_step h t) ?_
  exact fun _ _ _ _ => trivial

/-- **`activeRequests` counts the requests under way, and the `PROXY_REQUEST` messages whose log line has
thrown.** -/
theorem requests_counted (turns : List RequestTurn) :
    (run (RequestState.step p) {} turns).control.activeRequests =
      (run (RequestState.step p) {} turns).jobs.active Handler.isCounted +
        turns.countP (RequestTurn.abandons p) := (counted_run turns).count

end Count

/-! ### What becomes of a request -/

/-- The calls of a handler. -/
def RequestState.callsBy (s : RequestState) (n : ℕ) : List RequestCall :=
  (s.calls.filter fun e => e.1 = n).map Prod.snd

/-- The call that a handler makes. -/
def callOf : Except Outcome RequestCall → List RequestCall
  | .ok call => [call]
  | .error _ => []

/-- How a handler has ended: at once, or with the first event that ends its call. -/
def ending? (h : Handler) (n : ℕ) (w : Surroundings) (start : Except Outcome RequestCall)
    (later : List RequestTurn) : Option Ending :=
  match start with
  | .error o => some ⟨h, o, w⟩
  | .ok _ => later.findSome? fun u => (h.outcome? n u.event).map fun o => ⟨h, o, u.surroundings⟩

/-- What has been sent for it. -/
def answer (e : Option Ending) : List Json := (e.map Ending.reply).getD []

/-- A handler waits, or has ended. -/
inductive Fate (s : RequestState) (n : ℕ) (h : Handler) : Option Ending → Prop
  | waits (running : s.jobs.running.get? n = some h) : Fate s n h none
  | over {e : Ending} (ended : (n, e) ∈ s.jobs.ended) : Fate s n h (some e)

section Fates

variable {p} {s : RequestState} {t : RequestTurn} {n : ℕ} {h : Handler} {start : Except Outcome RequestCall}
  {w : Surroundings}

theorem length_deliver (w : Surroundings) : ∀ (text : JsString) (messages : List (JsString → Json)),
    (w.deliver text messages).length ≤ 1
  | _, [] => Nat.zero_le _
  | text, message :: messages => by
    unfold Surroundings.deliver
    split
    · exact Nat.le_refl _
    · exact length_deliver w _ messages

/-- A handler sends one message at most. -/
theorem length_reply (e : Ending) : e.reply.length ≤ 1 := length_deliver _ _ _

theorem Fate.sent {e : Option Ending} (hf : Fate s n h e) (hs : s.jobs.Sound Ending.reply) :
    s.jobs.saidBy n = answer e ∧ s.jobs.running.has n = e.isNone := by
  rcases hf with ⟨running⟩ | ⟨ended⟩
  · have hrun : s.jobs.running.has n = true := Option.isSome_iff_exists.mpr ⟨h, running⟩
    exact ⟨hs.quiet (hs.apart hrun), hrun⟩
  · have hover := mt hs.apart (not_not_intro (List.mem_map.mpr ⟨_, ended, rfl⟩))
    exact ⟨hs.answered ended, Bool.eq_false_iff.mpr hover⟩

theorem ends?_of_receives (hr : Receives p s t h start) : t.event.ends? = none := by
  rcases hr with ⟨he⟩ | ⟨he⟩ | ⟨he, -⟩ <;> rw [he] <;> rfl

theorem outcome?_of_ends {m : ℕ} {e : RequestEvent} (hends : e.ends? ≠ some m) (h : Handler) :
    h.outcome? m e = none := by
  rcases ho : h.outcome? m e with _ | o
  · rfl
  · exact absurd (ends?_of_outcome ho) hends

/-! The start of a handler -/

theorem begin_started (s : RequestState) (w : Surroundings) (h : Handler) (start : Except Outcome RequestCall) :
    (s.begin w h start).jobs.started = s.jobs.started ++ [h] := by
  rcases start with o | call
  · show (RequestState.finish _ _ _).jobs.started = _
    rw [finish_jobs, Jobs.finish_started]
    rfl
  · rfl

theorem begin_calls (s : RequestState) (w : Surroundings) (h : Handler) (start : Except Outcome RequestCall) :
    (s.begin w h start).calls = s.calls ++ (callOf start).map fun call => (s.jobs.next, call) := by
  rcases start with o | call
  · show (RequestState.finish _ _ _).calls = _
    rw [finish_calls]
    exact (List.append_nil _).symm
  · rfl

theorem begin_other {m : ℕ} (hm : m ≠ s.jobs.next) :
    (s.begin w h start).jobs.running.get? m = s.jobs.running.get? m := by
  have hset : (s.jobs.start h).running.get? m = s.jobs.running.get? m := OrdMap.get?_set_ne _ h hm
  rcases start with o | call
  · have hjobs : (s.begin w h (.error o)).jobs =
        (s.jobs.start h).finish Ending.reply s.jobs.next ⟨h, o, w⟩ := finish_jobs _ _
    have hrun : (s.jobs.start h).running.has s.jobs.next = true := OrdMap.has_set_iff.mpr (.inl rfl)
    rw [hjobs, Jobs.finish_of_running hrun, ← hset]
    exact OrdMap.get?_delete_ne _ hm
  · exact hset

theorem mem_ended_begin {e : ℕ × Ending} (he : e ∈ s.jobs.ended) : e ∈ (s.begin w h start).jobs.ended := by
  rcases start with o | call
  · show e ∈ (RequestState.finish _ _ _).jobs.ended
    rw [finish_jobs]
    exact Jobs.mem_ended_finish he
  · exact he

theorem fate_begin : Fate (s.begin w h start) s.jobs.next h (ending? h s.jobs.next w start []) := by
  rcases start with o | call
  · have hjobs : (s.begin w h (.error o)).jobs =
        (s.jobs.start h).finish Ending.reply s.jobs.next ⟨h, o, w⟩ := finish_jobs _ _
    refine .over ?_
    rw [hjobs]
    exact Jobs.ended_finish_self (OrdMap.has_set_iff.mpr (.inl rfl))
  · exact .waits (OrdMap.get?_set_self _ _ _)

/-! A turn after it -/

theorem fate_other {s' : RequestState} {e : Option Ending} (hf : Fate s n h e)
    (hrun : s'.jobs.running.get? n = s.jobs.running.get? n) (hended : ∀ e ∈ s.jobs.ended, e ∈ s'.jobs.ended) :
    Fate s' n h e := by
  rcases hf with ⟨running⟩ | ⟨ended⟩
  · exact .waits (hrun.trans running)
  · exact .over (hended _ ended)

/-- An event that does not end the call of the handler. -/
theorem ending?_concat (hnone : h.outcome? n t.event = none) (later : List RequestTurn) :
    ending? h n w start (later ++ [t]) = ending? h n w start later := by
  rcases start with o | call
  · rfl
  · unfold ending?
    dsimp only
    rw [List.findSome?_append]
    simp [hnone]

theorem ending?_over {e : Ending} {later : List RequestTurn} (he : ending? h n w start later = some e) :
    ending? h n w start (later ++ [t]) = some e := by
  rcases start with o | call
  · exact he
  · unfold ending? at he ⊢
    dsimp only at he ⊢
    rw [List.findSome?_append, he]
    rfl

theorem ending?_first {o : Outcome} {later : List RequestTurn} (hnone : ending? h n w start later = none)
    (ho : h.outcome? n t.event = some o) :
    ending? h n w start (later ++ [t]) = some ⟨h, o, t.surroundings⟩ := by
  rcases start with o' | call
  · cases hnone
  · unfold ending? at hnone ⊢
    dsimp only at hnone ⊢
    rw [List.findSome?_append, hnone]
    simp [ho]

theorem fate_step {later : List RequestTurn} (hn : n < s.jobs.next)
    (hf : Fate s n h (ending? h n w start later)) :
    Fate (s.step p t) n h (ending? h n w start (later ++ [t])) := by
  generalize hs' : s.step p t = s'
  have hdoes : TurnDoes p s t s' := hs' ▸ does_step s t
  rcases hdoes with ⟨same, -, -, hends⟩ | ⟨hr, same, -⟩ | ⟨hrun, ho⟩
  · have hkept : Fate s' n h (ending? h n w start later) :=
      fate_other hf (by rw [same.jobs]) fun e he => same.jobs ▸ he
    generalize he : ending? h n w start later = e at hf hkept
    rcases hf with ⟨running⟩ | -
    · rw [ending?_concat (hends n h running), he]
      exact hkept
    · rw [ending?_over he]
      exact hkept
  · rename_i s₀ h' start'
    have hne : n ≠ s₀.jobs.next := by
      rw [same.jobs]
      omega
    have hnone : h.outcome? n t.event = none := outcome?_of_ends (by rw [ends?_of_receives hr]; simp) h
    rw [ending?_concat hnone]
    exact fate_other hf (by rw [begin_other hne, same.jobs]) fun e he => mem_ended_begin (same.jobs ▸ he)
  · rename_i m h' o
    have hhas : s.jobs.running.has m = true := Option.isSome_iff_exists.mpr ⟨h', hrun⟩
    by_cases hm : n = m
    · subst hm
      generalize he : ending? h n w start later = e at hf
      rcases hf with ⟨running⟩ | ⟨ended⟩
      · obtain rfl := Option.some.inj (hrun.symm.trans running)
        rw [ending?_first he ho]
        refine .over ?_
        rw [finish_jobs]
        exact Jobs.ended_finish_self hhas
      · rw [ending?_over he]
        refine .over ?_
        rw [finish_jobs]
        exact Jobs.mem_ended_finish ended
    · have hnone : h.outcome? n t.event = none := by
        refine outcome?_of_ends ?_ h
        rw [ends?_of_outcome ho]
        exact fun heq => hm (Option.some.inj heq).symm
      rw [ending?_concat hnone]
      refine fate_other hf ?_ ?_
      · rw [finish_jobs, Jobs.finish_of_running hhas]
        exact OrdMap.get?_delete_ne _ hm
      · intro e he
        rw [finish_jobs]
        exact Jobs.mem_ended_finish he

/-! Numbers -/

theorem step_started (s : RequestState) (t : RequestTurn) :
    (s.step p t).jobs.started = s.jobs.started ∨
      ∃ h start, Receives p s t h start ∧ (s.step p t).jobs.started = s.jobs.started ++ [h] := by
  generalize hs' : s.step p t = s'
  have hdoes : TurnDoes p s t s' := hs' ▸ does_step s t
  rcases hdoes with ⟨same⟩ | ⟨hr, same⟩ | -
  · exact .inl (by rw [same.jobs])
  · refine .inr ⟨_, _, hr, ?_⟩
    rw [begin_started, same.jobs]
  · exact .inl (by rw [finish_jobs, Jobs.finish_started])

theorem next_le_step (s : RequestState) (t : RequestTurn) : s.jobs.next ≤ (s.step p t).jobs.next := by
  unfold Jobs.next
  rcases step_started (p := p) s t with h | ⟨h, start, -, h⟩
  · rw [h]
  · rw [h, List.length_append]
    omega

/-- The calls are those of handlers that have started. -/
def Numbered (s : RequestState) : Prop := ∀ e ∈ s.calls, e.1 < s.jobs.next

theorem numbered_step (h : Numbered s) (t : RequestTurn) : Numbered (s.step p t) := by
  generalize hs' : s.step p t = s'
  have hdoes : TurnDoes p s t s' := hs' ▸ does_step s t
  rcases hdoes with ⟨same⟩ | ⟨hr, same, -⟩ | -
  · intro e he
    rw [same.calls] at he
    rw [same.jobs]
    exact h e he
  · rename_i s₀ h' start
    intro e he
    have hnext : (s₀.begin t.surroundings h' start).jobs.next = s.jobs.next + 1 := by
      unfold Jobs.next
      rw [begin_started, List.length_append, same.jobs]
      rfl
    rw [begin_calls, same.calls, same.jobs] at he
    rw [hnext]
    rcases List.mem_append.mp he with he | he
    · have := h e he
      omega
    · obtain ⟨call, -, rfl⟩ := List.mem_map.mp he
      exact Nat.lt_succ_self _
  · intro e he
    rw [finish_calls] at he
    have hnext := h e he
    unfold Jobs.next at hnext ⊢
    rw [finish_jobs, Jobs.finish_started]
    exact hnext

theorem callsBy_begin (h : Numbered s) (w : Surroundings) (handler : Handler)
    (start : Except Outcome RequestCall) : (s.begin w handler start).callsBy s.jobs.next = callOf start := by
  unfold RequestState.callsBy
  have hold : s.calls.filter (fun e => e.1 = s.jobs.next) = [] := by
    refine List.filter_eq_nil_iff.mpr fun e he => ?_
    have := h e he
    simp only [decide_eq_true_eq]
    omega
  rw [begin_calls, List.filter_append, hold, List.nil_append, List.filter_map]
  simp [Function.comp_def]

theorem callsBy_step (hn : n < s.jobs.next) (t : RequestTurn) : (s.step p t).callsBy n = s.callsBy n := by
  generalize hs' : s.step p t = s'
  have hdoes : TurnDoes p s t s' := hs' ▸ does_step s t
  unfold RequestState.callsBy
  rcases hdoes with ⟨same⟩ | ⟨hr, same⟩ | -
  · rw [same.calls]
  · have hne : ¬ s.jobs.next = n := by omega
    rw [begin_calls, same.calls, same.jobs, List.filter_append, List.filter_map]
    simp [Function.comp_def, hne]
  · rw [finish_calls]

theorem numbered_run (turns : List RequestTurn) : Numbered (run (RequestState.step p) {} turns) := by
  refine run_induct (C := fun _ _ _ => True) (J := fun _ s => Numbered s) ?_ (fun pre t h _ => numbered_step h t) ?_
  · intro e he
    cases he
  · exact fun _ _ _ _ => trivial

/-! Runs -/

/-- What is known of a handler after a run: it has made its call, it waits or has ended, and what has been sent
for it is what its end sends. -/
structure Answered (s : RequestState) (n : ℕ) (start : Except Outcome RequestCall) (e : Option Ending) : Prop where
  calls : s.callsBy n = callOf start
  sent : s.jobs.saidBy n = answer e
  once : (s.jobs.saidBy n).length ≤ 1
  waiting : s.jobs.running.has n = e.isNone

theorem length_answer (e : Option Ending) : (answer e).length ≤ 1 := by
  rcases e with _ | e
  · exact Nat.zero_le _
  · exact length_reply e

/-- The turn that brings a request starts its handler. -/
theorem step_of_receives (hr : Receives p s t h start) :
    ∃ s₀ : RequestState, Passes s s₀ ∧ s.step p t = s₀.begin t.surroundings h start := by
  unfold RequestState.step
  rcases hr with ⟨he⟩ | ⟨he⟩ | ⟨he, runs⟩
  · rw [he]
    exact ⟨s.addRequest, ⟨rfl, rfl⟩, rfl⟩
  · rw [he]
    exact ⟨s, ⟨rfl, rfl⟩, rfl⟩
  · rename_i streamId data
    refine ⟨{ s with control := (s.control.handleData streamId data).1 }, ⟨rfl, rfl⟩, ?_⟩
    rw [he]
    have hhandle : s.control.handle p (.streamData streamId data) = s.control.handleData streamId data := rfl
    show s.handleStream p t.surroundings (.streamData streamId data) = _
    unfold RequestState.handleStream
    simp only [hhandle, runs]

theorem answered_run {pre : List RequestTurn} (hr : Receives p (run (RequestState.step p) {} pre) t h start)
    (post : List RequestTurn) :
    Answered (run (RequestState.step p) {} (pre ++ t :: post)) (run (RequestState.step p) {} pre).jobs.next start
      (ending? h (run (RequestState.step p) {} pre).jobs.next t.surroundings start post) := by
  generalize hs : run (RequestState.step p) {} pre = s at hr
  have hnumbered : Numbered s := hs ▸ numbered_run pre
  obtain ⟨s₀, same, hstep⟩ := step_of_receives hr
  have hall : Fate (run (RequestState.step p) (s.step p t) post) s.jobs.next h
        (ending? h s.jobs.next t.surroundings start post) ∧
      (run (RequestState.step p) (s.step p t) post).callsBy s.jobs.next = callOf start ∧
      s.jobs.next < (run (RequestState.step p) (s.step p t) post).jobs.next := by
    induction post using List.reverseRecOn with
    | nil =>
      rw [run_nil, hstep, ← same.jobs]
      refine ⟨fate_begin, callsBy_begin ?_ _ _ _, ?_⟩
      · intro e he
        rw [same.calls] at he
        rw [same.jobs]
        exact hnumbered e he
      · unfold Jobs.next
        rw [begin_started, List.length_append]
        exact Nat.lt_succ_self _
    | append_singleton post u ih =>
      obtain ⟨hfate, hcalls, hlt⟩ := ih
      rw [run_concat]
      exact ⟨fate_step hlt hfate, (callsBy_step hlt u).trans hcalls, hlt.trans_le (next_le_step _ u)⟩
  have hsound := (counted_run (p := p) (pre ++ t :: post)).sound
  rw [run_append, run_cons, hs] at hsound ⊢
  obtain ⟨hsent, hwaiting⟩ := hall.1.sent hsound
  exact ⟨hall.2.1, hsent, hsent ▸ length_answer _, hwaiting⟩

/-- Every handler comes from a turn that has brought a request. -/
theorem arrived_run (turns : List RequestTurn) : ∀ n < (run (RequestState.step p) {} turns).jobs.next,
    ∃ pre t post h start, turns = pre ++ t :: post ∧
      Receives p (run (RequestState.step p) {} pre) t h start ∧
        (run (RequestState.step p) {} pre).jobs.next = n := by
  induction turns using List.reverseRecOn with
  | nil =>
    intro n hn
    exact absurd hn (Nat.not_lt_zero n)
  | append_singleton turns t ih =>
    intro n hn
    have hold : n < (run (RequestState.step p) {} turns).jobs.next → _ := ih n
    have hextend : (∃ pre u post h start, turns = pre ++ u :: post ∧
          Receives p (run (RequestState.step p) {} pre) u h start ∧
            (run (RequestState.step p) {} pre).jobs.next = n) →
        ∃ pre u post h start, turns ++ [t] = pre ++ u :: post ∧
          Receives p (run (RequestState.step p) {} pre) u h start ∧
            (run (RequestState.step p) {} pre).jobs.next = n := by
      rintro ⟨pre, u, post, h, start, rfl, hr, hnext⟩
      exact ⟨pre, u, post ++ [t], h, start, by simp, hr, hnext⟩
    rw [run_concat] at hn
    unfold Jobs.next at hn
    rcases step_started (p := p) (run (RequestState.step p) {} turns) t with hsame | ⟨h, start, hr, hnew⟩
    · rw [hsame] at hn
      exact hextend (hold hn)
    · rw [hnew, List.length_append, List.length_singleton] at hn
      by_cases hlast : n = (run (RequestState.step p) {} turns).jobs.next
      · exact ⟨turns, t, [], h, start, rfl, hr, hlast.symm⟩
      · refine hextend (hold ?_)
        unfold Jobs.next at hlast ⊢
        omega

/-- What is said is said by a handler that has started. -/
theorem lt_of_said {m : Json} (hs : s.jobs.Sound Ending.reply) (hm : (n, m) ∈ s.jobs.said) : n < s.jobs.next := by
  have hmem : m ∈ s.jobs.saidBy n :=
    List.mem_map.mpr ⟨(n, m), List.mem_filter.mpr ⟨hm, decide_eq_true rfl⟩, rfl⟩
  by_contra hlt
  have hnot : n ∉ s.jobs.ended.map Prod.fst := fun hend => hlt (hs.ended hend)
  rw [hs.quiet hnot] at hmem
  cases hmem

/-- **Every request is answered, once and with its own result.** In every run: a request that a turn has brought
has made the call of its own message, if any; nothing is sent for it before the call has ended, and then what the
first end of this call makes of it, one message at most. Nothing else is sent. -/
theorem every_request_answered (turns : List RequestTurn) :
    (∀ pre t post h start, turns = pre ++ t :: post → Receives p (run (RequestState.step p) {} pre) t h start →
      Answered (run (RequestState.step p) {} turns) (run (RequestState.step p) {} pre).jobs.next start
        (ending? h (run (RequestState.step p) {} pre).jobs.next t.surroundings start post)) ∧
    ∀ n m, (n, m) ∈ (run (RequestState.step p) {} turns).jobs.said → ∃ pre t post h start,
      turns = pre ++ t :: post ∧ Receives p (run (RequestState.step p) {} pre) t h start ∧
        (run (RequestState.step p) {} pre).jobs.next = n := by
  refine ⟨?_, ?_⟩
  · rintro pre t post h start rfl hr
    exact answered_run hr post
  · intro n m hm
    exact arrived_run turns n (lt_of_said (counted_run turns).sound hm)

end Fates

namespace Sample

def requestPlatform : Platform := ({} : Tables).platform

/-- A tunnel that takes every message. -/
def openTunnel : Surroundings where
  timestamp := JsNumber.ofNat 7
  send _ := none
  native := js "TypeError"

def page (status : ℕ) (body : Bytes) : ProxyResult where
  status := status
  statusText := js "OK"
  headers := []
  body := body
  cached := false
  profile_hash := none

def commandMessage : Json :=
  .obj [(js "type", .str (js "proxy_request")), (js "id", .str (js "r1")), (js "timestamp", .num (JsNumber.ofNat 1)),
    (js "target_url", .str (js "https://a.example/")), (js "method", .str (js "GET"))]

def sessionText : JsString := js "\x7b\"id\":\"q1\",\"url\":\"https://b.example/\"\x7d"

/-- A session message, then a command; the command is served first. -/
def crossedTurns : List RequestTurn :=
  [RequestEvent.stream (.streamOpen (js "s1") (some (js "proxy-session"))),
    .stream (.streamData (js "s1") (base64 (utf8 sessionText))), .proxyRequest commandMessage,
    .served 1 (.ok (page 200 [1])), .served 0 (.ok (page 404 [2]))].map fun e => ⟨e, openTunnel⟩

/-- Each answer goes to its own request. -/
theorem crossed_answers :
    (run (RequestState.step requestPlatform) {} crossedTurns).jobs.saidBy 0 =
      [streamDataMessage (JsNumber.ofNat 7) (js "s1")
        (jsonBuffer (sessionResponse (some (.str (js "q1"))) (page 404 [2])))] ∧
    (run (RequestState.step requestPlatform) {} crossedTurns).jobs.saidBy 1 =
      [proxyResponse (JsNumber.ofNat 7) (some (.str (js "r1"))) (page 200 [1])] := by
  have hanswered := (every_request_answered (p := requestPlatform) crossedTurns).1
  have hsession := (hanswered (crossedTurns.take 1)
    ⟨.stream (.streamData (js "s1") (base64 (utf8 sessionText))), openTunnel⟩ (crossedTurns.drop 2) _ _ rfl
    (.session rfl (by decide +kernel))).sent
  have hcommand := (hanswered (crossedTurns.take 2) ⟨.proxyRequest commandMessage, openTunnel⟩
    (crossedTurns.drop 3) _ _ rfl (.proxy rfl)).sent
  have hnext : (run (RequestState.step requestPlatform) {} (crossedTurns.take 1)).jobs.next = 0 := by decide +kernel
  have hnext' : (run (RequestState.step requestPlatform) {} (crossedTurns.take 2)).jobs.next = 1 := by decide +kernel
  rw [hnext] at hsession
  rw [hnext'] at hcommand
  refine ⟨hsession.trans ?_, hcommand.trans ?_⟩
  · decide +kernel
  · decide +kernel

end Sample

end ConsensusNode.Clients
