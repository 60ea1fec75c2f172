import ConsensusNode.Lib.PendingCalls
import ConsensusNode.Lib.Run
import ConsensusNode.Tunnel.TunnelClient

/-! # Requests and their answers

`request` of `tunnel/tunnel-client.ts` with the map `pending`, its timers, `close` and the close event. A
call of `request` is its number; what comes in goes through `TunnelClient.handleRawMessage`. `request` runs
without a break up to the end of its `send`, and everything else between two frames is one step, so a run is
a list of events in any order.

* `request_correlation`: of the requests that could be sent, exactly those that have not ended wait; each
  ends once, by its own answer, its own timer or a close.
* `unsent_request_stays`: a request that could not be sent leaves its entry and its timer. -/

namespace ConsensusNode.Tunnel

open Js Crypto Lib Lib.Run

variable (p : Platform)

/-- A message as an object, in the order of its fields; `none` is a value that `JSON.stringify` refuses. -/
abbrev RequestMessage := OrdMap JsString (Option Json)

namespace RequestMessage

def id? (m : RequestMessage) : Option JsString :=
  match m.get? (js "id") with
  | some (some (.str id)) => some id
  | _ => none

/-- `{ ...message, id }` -/
def withId (m : RequestMessage) (id : JsString) : RequestMessage := m.set (js "id") (some (.str id))

/-- A field that can be encoded. -/
def fieldJson (e : JsString × Option Json) : Option (JsString × Json) := e.2.map fun v => (e.1, v)

/-- The value that is encoded. -/
def toJson (m : RequestMessage) : Option Json := (m.entries.mapM fieldJson).map .obj

end RequestMessage

/-- How the promise of a request ends. -/
inductive Outcome where
  | reply (message : Json)
  | errorReply (message : Json)
  | timeout
  | closed
  | sendFailed (err : JsError)
deriving DecidableEq

/-- The request could not be sent. -/
def Outcome.Unsent : Outcome → Prop
  | .sendFailed _ => True
  | _ => False

/-- The client with the calls of `request`. -/
structure RequestClient where
  isOpen : Bool := true
  sendSequence : ℕ := 0
  lastReceiveSequence : ℤ := -1
  calls : Calls JsString Outcome := {}

namespace RequestClient

/-- The client without the promises: `pending` has the names of the calls that wait. -/
def client (s : RequestClient) : TunnelClient where
  isOpen := s.isOpen
  sendSequence := s.sendSequence
  lastReceiveSequence := s.lastReceiveSequence
  pending := s.calls.waiting.map fun _ => ()

/-- What `resolvePending` and `rejectAll` do to the promises. -/
def settle (calls : Calls JsString Outcome) : TunnelClient.Receipt → Calls JsString Outcome
  | .accepted _ _ (.deliver message (some (.resolve id))) => calls.answer id (.reply message)
  | .accepted _ _ (.deliver message (some (.reject id _))) => calls.answer id (.errorReply message)
  | .accepted _ _ .close => calls.dropAll .closed
  | _ => calls

/-- Encoding comes before the sequence number is taken. -/
def send (s : RequestClient) (session : SecureSession) (m : RequestMessage) (nonce : Bytes) :
    Except JsError Bytes × RequestClient :=
  if s.isOpen then
    match m.toJson with
    | none => (.error .native, s)
    | some message =>
      let (sent, c) := s.client.send p session { message, nonce }
      (sent, { s with sendSequence := c.sendSequence })
  else (.error (.thrown (js "Tunnel is not connected")), s)

/-- The timer and the entry of the call come before its `send`. -/
def request (s : RequestClient) (session : SecureSession) (m : RequestMessage) (uuid : JsString)
    (nonce : Bytes) : RequestClient :=
  let id := m.id?.getD uuid
  let n := s.calls.names.length
  match { s with calls := s.calls.start id }.send p session (m.withId id) nonce with
  | (.ok _, s) => s
  | (.error err, s) => { s with calls := s.calls.finish n (.sendFailed err) }

def close (s : RequestClient) : RequestClient :=
  { s with isOpen := false, calls := s.calls.dropAll .closed }

inductive Event where
  /-- A call of `request`; `uuid` and `nonce` are random. -/
  | request (m : RequestMessage) (uuid : JsString) (nonce : Bytes)
  /-- Any other call of `send`. -/
  | send (i : SendInput)
  | incoming (d : TunnelClient.Delivery)
  /-- The timer of a call is due. -/
  | timer (n : ℕ)
  | close
  /-- The socket is no longer open, and its close event has not come yet. -/
  | closing
  /-- The close event. -/
  | closed

def step (session : SecureSession) (s : RequestClient) : Event → RequestClient
  | .request m uuid nonce => s.request p session m uuid nonce
  | .send i => { s with sendSequence := (s.client.send p session i).2.sendSequence }
  | .incoming d =>
    let (receipt, c) := s.client.handleRawMessage p session d
    { isOpen := c.isOpen
      sendSequence := c.sendSequence
      lastReceiveSequence := c.lastReceiveSequence
      calls := settle s.calls receipt }
  | .timer n => { s with calls := s.calls.expire n .timeout }
  | .close => s.close
  | .closing => { s with isOpen := false }
  | .closed => s.close

/-- The id of a request. -/
def Event.requestId : Event → Option JsString
  | .request m uuid _ => some (m.id?.getD uuid)
  | _ => none

/-- The ids of the requests, in the order of the calls. -/
def requestIds (events : List Event) : List JsString := events.filterMap Event.requestId

variable {p} {session : SecureSession} {s : RequestClient}

/-! ### What comes in goes through the client -/

/-- The message answers the request with this id. -/
def AnswerTo (message : Json) (id : JsString) : Prop := message.field? (js "reply_to") = some (.str id)

/-- The message is an error. -/
def IsError (message : Json) : Prop := message.field? (js "type") = some (.str (js "error"))

/-- What an outcome of `handleRawMessage` does to the requests that wait: nothing, a close, or one
answer. -/
inductive Settles (pending pending' : OrdMap JsString Unit) : TunnelClient.Receipt → Prop
  | nothing {receipt : TunnelClient.Receipt} (hcalls : ∀ calls, settle calls receipt = calls)
      (hpending : pending' = pending) : Settles pending pending' receipt
  | close {frame : FrameParts} {plaintext : Bytes} (hpending : pending' = ∅) :
      Settles pending pending' (.accepted frame plaintext .close)
  | resolve {frame : FrameParts} {plaintext : Bytes} {message : Json} {id : JsString}
      (hanswer : AnswerTo message id) (herror : ¬IsError message) (hpending : pending' = pending.delete id) :
      Settles pending pending' (.accepted frame plaintext (.deliver message (some (.resolve id))))
  | reject {frame : FrameParts} {plaintext : Bytes} {message : Json} {id : JsString} {text : Option Json}
      (hanswer : AnswerTo message id) (herror : IsError message) (hpending : pending' = pending.delete id) :
      Settles pending pending' (.accepted frame plaintext (.deliver message (some (.reject id text))))

theorem resolvePending_settles (c : TunnelClient) (frame : FrameParts) (plaintext : Bytes) (message : Json) :
    Settles c.pending (c.resolvePending message).2.pending
      (.accepted frame plaintext (.deliver message (c.resolvePending message).1)) := by
  unfold TunnelClient.resolvePending
  split
  · rename_i x id hanswer
    by_cases hhas : c.pending.has (x :: id) = true
    · rw [if_pos hhas]
      by_cases herror : IsError message
      · simp only [if_pos (show message.field? (js "type") = some (.str (js "error")) from herror)]
        exact .reject hanswer herror rfl
      · simp only [if_neg (show ¬message.field? (js "type") = some (.str (js "error")) from herror)]
        exact .resolve hanswer herror rfl
    · rw [if_neg hhas]
      exact .nothing (fun _ => rfl) rfl
  · exact .nothing (fun _ => rfl) rfl

theorem dispatch_settles (c : TunnelClient) (frame : FrameParts) (plaintext nonce : Bytes) (now : JsNumber) :
    Settles c.pending (c.dispatch p session frame plaintext nonce now).2.pending
      (.accepted frame plaintext (c.dispatch p session frame plaintext nonce now).1) := by
  unfold TunnelClient.dispatch
  split
  · exact .nothing (fun _ => rfl) ((congrArg TunnelClient.pending (c.send_frame session _)).trans rfl)
  · exact .nothing (fun _ => rfl) rfl
  · exact .close rfl
  · split
    · exact .nothing (fun _ => rfl) rfl
    · exact resolvePending_settles c frame plaintext _

theorem handleRawMessage_settles (c : TunnelClient) (d : TunnelClient.Delivery) :
    Settles c.pending (c.handleRawMessage p session d).2.pending (c.handleRawMessage p session d).1 := by
  unfold TunnelClient.handleRawMessage
  split
  · exact .nothing (fun _ => rfl) rfl
  · rename_i frame plaintext _
    exact dispatch_settles { c with lastReceiveSequence := (frame.sequence : ℤ) } frame plaintext d.nonce d.now

/-! ### What comes out of a step -/

/-- What `send` does with the message of a request. -/
def requestFrame (p : Platform) (session : SecureSession) (s : RequestClient) (m : RequestMessage)
    (uuid : JsString) (nonce : Bytes) : Except JsError Bytes :=
  (s.send p session (m.withId (m.id?.getD uuid)) nonce).1

theorem send_calls (m : RequestMessage) (nonce : Bytes) : (s.send p session m nonce).2.calls = s.calls := by
  unfold send
  split_ifs
  · split <;> rfl
  · rfl

/-- Nothing of a message depends on the calls that wait. -/
theorem send_with_calls (calls : Calls JsString Outcome) (m : RequestMessage) (nonce : Bytes) :
    ({ s with calls := calls }.send p session m nonce).1 = (s.send p session m nonce).1 := by
  unfold send client TunnelClient.send
  dsimp only
  split_ifs
  · split <;> rfl
  · rfl

theorem request_calls (m : RequestMessage) (uuid : JsString) (nonce : Bytes) :
    (s.request p session m uuid nonce).calls =
      match s.requestFrame p session m uuid nonce with
      | .ok _ => s.calls.start (m.id?.getD uuid)
      | .error err => (s.calls.start (m.id?.getD uuid)).finish s.calls.names.length (.sendFailed err) := by
  have hframe : ({ s with calls := s.calls.start (m.id?.getD uuid) }.send p session
      (m.withId (m.id?.getD uuid)) nonce).1 = s.requestFrame p session m uuid nonce := send_with_calls _ _ _
  have hcalls : ({ s with calls := s.calls.start (m.id?.getD uuid) }.send p session
      (m.withId (m.id?.getD uuid)) nonce).2.calls = s.calls.start (m.id?.getD uuid) := send_calls _ _
  rw [← hframe]
  unfold request
  dsimp only
  generalize { s with calls := s.calls.start (m.id?.getD uuid) }.send p session (m.withId (m.id?.getD uuid))
    nonce = sent at hcalls ⊢
  obtain ⟨frame, s'⟩ := sent
  cases frame with
  | ok _ => exact hcalls
  | error err =>
    show s'.calls.finish _ _ = _
    rw [show s'.calls = s.calls.start (m.id?.getD uuid) from hcalls]

/-- The event closes the client. -/
def Closes (p : Platform) (session : SecureSession) (s : RequestClient) : Event → Prop
  | .incoming d => ∃ frame plaintext, (s.client.handleRawMessage p session d).1 = .accepted frame plaintext .close
  | .close => True
  | .closed => True
  | _ => False

/-- The message arrives and is accepted. -/
def Delivers (p : Platform) (session : SecureSession) (s : RequestClient) (message : Json) : Event → Prop
  | .incoming d => ∃ frame plaintext settles,
      (s.client.handleRawMessage p session d).1 = .accepted frame plaintext (.deliver message settles)
  | _ => False

/-- Why the request with the number `n` ends like this in the step. -/
def Cause (p : Platform) (session : SecureSession) (s : RequestClient) (e : Event) (n : ℕ) : Outcome → Prop
  | .reply message => Delivers p session s message e ∧ ¬IsError message ∧
      ∃ id, s.calls.names[n]? = some id ∧ AnswerTo message id
  | .errorReply message => Delivers p session s message e ∧ IsError message ∧
      ∃ id, s.calls.names[n]? = some id ∧ AnswerTo message id
  | .timeout => e = .timer n ∧ n ∈ s.calls.timers
  | .closed => Closes p session s e
  | .sendFailed err => n = s.calls.names.length ∧
      ∃ m uuid nonce, e = .request m uuid nonce ∧ s.requestFrame p session m uuid nonce = .error err

section Settle

variable {receipt : TunnelClient.Receipt} {pending' : OrdMap JsString Unit}

theorem settle_names (hs : Settles s.client.pending pending' receipt) :
    (settle s.calls receipt).names = s.calls.names := by
  cases hs with
  | nothing hcalls _ => rw [hcalls]
  | close _ => exact Calls.dropAll_names
  | resolve _ _ _ | reject _ _ _ => exact Calls.answer_names

theorem settle_inv (hs : Settles s.client.pending pending' receipt) (h : s.calls.Inv Outcome.Unsent) :
    (settle s.calls receipt).Inv Outcome.Unsent := by
  cases hs with
  | nothing hcalls _ =>
    rw [hcalls]
    exact h
  | close _ => exact h.dropAll _
  | resolve _ _ _ | reject _ _ _ => exact h.answer _ _

theorem settle_cause (hs : Settles s.client.pending pending' receipt) (h : s.calls.Inv Outcome.Unsent)
    {d : TunnelClient.Delivery} (hreceipt : (s.client.handleRawMessage p session d).1 = receipt) {n : ℕ}
    {o : Outcome} (hmem : (n, o) ∈ (settle s.calls receipt).ended) :
    (n, o) ∈ s.calls.ended ∨ Cause p session s (.incoming d) n o := by
  cases hs with
  | nothing hcalls _ =>
    rw [hcalls] at hmem
    exact .inl hmem
  | close _ =>
    rcases Calls.mem_dropAll hmem with hold | rfl
    · exact .inl hold
    · exact .inr ⟨_, _, hreceipt⟩
  | resolve hanswer herror _ =>
    rcases Calls.mem_answer hmem with hold | ⟨hwaits, rfl⟩
    · exact .inl hold
    · exact .inr ⟨⟨_, _, _, hreceipt⟩, herror, _, h.waits hwaits, hanswer⟩
  | reject hanswer herror _ =>
    rcases Calls.mem_answer hmem with hold | ⟨hwaits, rfl⟩
    · exact .inl hold
    · exact .inr ⟨⟨_, _, _, hreceipt⟩, herror, _, h.waits hwaits, hanswer⟩

end Settle

theorem step_names (e : Event) :
    (step p session s e).calls.names = s.calls.names ++ e.requestId.toList := by
  cases e with
  | request m uuid nonce =>
    show (s.request p session m uuid nonce).calls.names = _
    rw [request_calls]
    split
    · rfl
    · exact Calls.finish_names
  | send i => exact (List.append_nil _).symm
  | incoming d =>
    rw [show Event.requestId (.incoming d) = none from rfl, Option.toList_none, List.append_nil]
    exact settle_names (handleRawMessage_settles s.client d)
  | timer n =>
    rw [show Event.requestId (.timer n) = none from rfl, Option.toList_none, List.append_nil]
    exact Calls.expire_names
  | close | closed =>
    refine Eq.trans ?_ (List.append_nil _).symm
    exact Calls.dropAll_names
  | closing => exact (List.append_nil _).symm

/-! ### One step -/

theorem inv_step (h : s.calls.Inv Outcome.Unsent) {e : Event}
    (hnew : ∀ id, e.requestId = some id → id ∉ s.calls.names) :
    (step p session s e).calls.Inv Outcome.Unsent := by
  cases e with
  | request m uuid nonce =>
    have hstart := h.start (hnew _ rfl)
    show (s.request p session m uuid nonce).calls.Inv _
    rw [request_calls]
    split
    · exact hstart
    · refine hstart.finish ?_ trivial
      show s.calls.names.length < (s.calls.names ++ [_]).length
      simp
  | send i => exact h
  | incoming d => exact settle_inv (handleRawMessage_settles s.client d) h
  | timer n => exact h.expire _ _
  | close | closed => exact h.dropAll _
  | closing => exact h

theorem cause_step (h : s.calls.Inv Outcome.Unsent) {e : Event} {n : ℕ} {o : Outcome}
    (hmem : (n, o) ∈ (step p session s e).calls.ended) : (n, o) ∈ s.calls.ended ∨ Cause p session s e n o := by
  cases e with
  | request m uuid nonce =>
    change (n, o) ∈ (s.request p session m uuid nonce).calls.ended at hmem
    rw [request_calls] at hmem
    split at hmem
    · exact .inl hmem
    · rename_i err herr
      rcases Calls.mem_finish.mp hmem with hold | ⟨-, rfl, rfl⟩
      · exact .inl hold
      · exact .inr ⟨rfl, m, uuid, nonce, rfl, herr⟩
  | send i => exact .inl hmem
  | incoming d => exact settle_cause (handleRawMessage_settles s.client d) h rfl hmem
  | timer m =>
    rcases Calls.mem_expire hmem with hold | ⟨rfl, ht, rfl⟩
    · exact .inl hold
    · exact .inr ⟨rfl, ht⟩
  | close | closed =>
    rcases Calls.mem_dropAll hmem with hold | rfl
    · exact .inl hold
    · exact .inr trivial
  | closing => exact .inl hmem

/-- A message that answers no request that waits leaves all requests alone. -/
theorem late_reply {message : Json} {e : Event} (hdelivers : Delivers p session s message e)
    (hlate : ∀ id, AnswerTo message id → s.calls.waiting.get? id = none) :
    (step p session s e).calls = s.calls := by
  cases e with
  | incoming d =>
    obtain ⟨frame, plaintext, settles, hreceipt⟩ := hdelivers
    show settle s.calls (s.client.handleRawMessage p session d).1 = s.calls
    have hs : Settles s.client.pending (s.client.handleRawMessage p session d).2.pending
        (s.client.handleRawMessage p session d).1 := handleRawMessage_settles s.client d
    rw [hreceipt] at hs ⊢
    cases hs with
    | nothing hcalls _ => exact hcalls _
    | resolve hanswer _ _ | reject hanswer _ _ => exact Calls.answer_of_not_waiting (hlate _ hanswer)
  | _ => exact hdelivers.elim

/-- A client that is open after a frame was open before, and the frame was no close. -/
theorem dispatch_isOpen {c : TunnelClient} {frame : FrameParts} {plaintext nonce : Bytes} {now : JsNumber}
    (h : (c.dispatch p session frame plaintext nonce now).2.isOpen = true) :
    c.isOpen = true ∧ (c.dispatch p session frame plaintext nonce now).1 ≠ .close := by
  unfold TunnelClient.dispatch at h ⊢
  split at h
  · exact ⟨(congrArg TunnelClient.isOpen (c.send_frame session _)).symm.trans h, nofun⟩
  · exact ⟨h, nofun⟩
  · cases h
  · split at h
    · exact ⟨h, nofun⟩
    · exact ⟨(congrArg TunnelClient.isOpen (c.resolvePending_frame _)).symm.trans h, nofun⟩

theorem handleRawMessage_isOpen {c : TunnelClient} {d : TunnelClient.Delivery}
    (h : (c.handleRawMessage p session d).2.isOpen = true) :
    c.isOpen = true ∧
      ∀ frame plaintext, (c.handleRawMessage p session d).1 ≠ .accepted frame plaintext .close := by
  unfold TunnelClient.handleRawMessage at h ⊢
  split at h
  · exact ⟨h, nofun⟩
  · obtain ⟨hopen, hne⟩ := dispatch_isOpen h
    exact ⟨hopen, fun _ _ heq => hne (TunnelClient.Receipt.accepted.inj heq).2.2⟩

theorem closes_step {e : Event} (h : Closes p session s e) :
    (step p session s e).calls.waiting = ∅ ∧ (step p session s e).isOpen = false := by
  cases e with
  | incoming d =>
    obtain ⟨frame, plaintext, hreceipt⟩ := h
    constructor
    · show (settle s.calls (s.client.handleRawMessage p session d).1).waiting = ∅
      rw [hreceipt]
      exact Calls.dropAll_waiting
    · by_contra hopen
      rw [Bool.not_eq_false] at hopen
      exact (handleRawMessage_isOpen hopen).2 _ _ hreceipt
  | close | closed => exact ⟨Calls.dropAll_waiting, rfl⟩
  | _ => exact h.elim

/-- Once closed, the client stays so, and nothing waits. -/
theorem closed_step {e : Event} (hw : s.calls.waiting = ∅) (hopen : s.isOpen = false)
    (he : e.requestId = none) : (step p session s e).calls.waiting = ∅ ∧ (step p session s e).isOpen = false := by
  have hget : ∀ k, s.calls.waiting.get? k = none := by
    intro k
    rw [hw]
    rfl
  cases e with
  | request m uuid nonce => cases he
  | send i => exact ⟨hw, hopen⟩
  | incoming d =>
    constructor
    · show (settle s.calls (s.client.handleRawMessage p session d).1).waiting = ∅
      have hs : Settles s.client.pending (s.client.handleRawMessage p session d).2.pending
          (s.client.handleRawMessage p session d).1 := handleRawMessage_settles s.client d
      generalize (s.client.handleRawMessage p session d).1 = receipt at hs ⊢
      cases hs with
      | nothing hcalls _ =>
        rw [hcalls]
        exact hw
      | close _ => exact Calls.dropAll_waiting
      | resolve _ _ _ | reject _ _ _ =>
        exact (congrArg Calls.waiting (Calls.answer_of_not_waiting (hget _))).trans hw
    · by_contra hopen'
      rw [Bool.not_eq_false] at hopen'
      exact Bool.false_ne_true (hopen.symm.trans (handleRawMessage_isOpen hopen').1)
  | timer n =>
    refine ⟨?_, hopen⟩
    show (s.calls.expire n .timeout).waiting = ∅
    rcases Calls.expire_cases (c := s.calls) (n := n) (o := .timeout) with he | ⟨k, -, -, he⟩
    · rw [he, hw]
    · rw [he, Calls.remove_waiting, OrdMap.delete_of_get?_none (hget k), hw]
  | close | closed => exact ⟨Calls.dropAll_waiting, rfl⟩
  | closing => exact ⟨hw, rfl⟩

/-! ### Runs -/

/-- Requests are made while the client is open. -/
def OpenRequests (p : Platform) (session : SecureSession) (s : RequestClient) (events : List Event) : Prop :=
  Steps (step p session) (fun _ t e => e.requestId ≠ none → t.isOpen = true) s events

theorem run_names (events : List Event) :
    (run (step p session) s events).calls.names = s.calls.names ++ requestIds events := by
  induction events generalizing s with
  | nil => simp [requestIds]
  | cons e events ih =>
    rw [run_cons, ih, step_names, List.append_assoc]
    unfold requestIds
    cases h : e.requestId with
    | none => rw [List.filterMap_cons_none h]; rfl
    | some id => rw [List.filterMap_cons_some h]; rfl

theorem run_inv (h0 : s.calls = {}) {events : List Event} (hids : (requestIds events).Nodup) :
    (run (step p session) s events).calls.Inv Outcome.Unsent := by
  induction events using List.reverseRecOn with
  | nil =>
    rw [run_nil, h0]
    exact Calls.inv_init _
  | append_singleton events e ih =>
    rw [requestIds, List.filterMap_append] at hids
    rw [run_concat]
    refine inv_step (ih hids.of_append_left) ?_
    intro id hid hmem
    rw [run_names, h0] at hmem
    exact hids.disjoint hmem (List.mem_filterMap.mpr ⟨e, by simp, hid⟩)

/-- Whatever has ended has a cause in the run. -/
theorem run_cause (h0 : s.calls = {}) {events : List Event} (hids : (requestIds events).Nodup) {n : ℕ}
    {o : Outcome} (hmem : (n, o) ∈ (run (step p session) s events).calls.ended) :
    ∃ pre e post, events = pre ++ e :: post ∧ Cause p session (run (step p session) s pre) e n o := by
  induction events using List.reverseRecOn with
  | nil =>
    rw [run_nil, h0] at hmem
    cases hmem
  | append_singleton events e ih =>
    rw [requestIds, List.filterMap_append] at hids
    rw [run_concat] at hmem
    rcases cause_step (run_inv h0 hids.of_append_left) hmem with hold | hcause
    · obtain ⟨pre, e', post, rfl, hcause⟩ := ih hids.of_append_left hold
      exact ⟨pre, e', post ++ [e], by simp, hcause⟩
    · exact ⟨events, e, [], rfl, hcause⟩

/-- Nothing waits from the first close on. -/
theorem run_closed {pre post : List Event} {e : Event} (hopen : OpenRequests p session s (pre ++ e :: post))
    (hclose : Closes p session (run (step p session) s pre) e) :
    (run (step p session) s (pre ++ e :: post)).calls.waiting = ∅ := by
  suffices h : (run (step p session) s (pre ++ e :: post)).calls.waiting = ∅ ∧
      (run (step p session) s (pre ++ e :: post)).isOpen = false from h.1
  induction post using List.reverseRecOn with
  | nil =>
    rw [run_concat]
    exact closes_step hclose
  | append_singleton post e' ih =>
    have hsplit : pre ++ e :: (post ++ [e']) = (pre ++ e :: post) ++ [e'] := by simp
    rw [hsplit] at hopen ⊢
    obtain ⟨hw, ho⟩ := ih hopen.init
    rw [run_concat]
    refine closed_step hw ho ?_
    by_contra hid
    exact Bool.false_ne_true (ho.symm.trans (hopen.last hid))

/-- **Requests and answers.** In every run of a client that starts without requests, whose requests have
different ids and are made while it is open: of the requests that could be sent exactly those that have not
ended wait, under their ids; every request ends once at most, and for a reason (`Cause`); a message that
answers no request that waits changes none; and nothing waits once the client is closed. -/
theorem request_correlation (session : SecureSession) (s : RequestClient) (h0 : s.calls = {})
    (events : List Event) (hids : (requestIds events).Nodup) (hopen : OpenRequests p session s events) :
    (∀ n id, (requestIds events)[n]? = some id →
      (∀ err, (n, Outcome.sendFailed err) ∉ (run (step p session) s events).calls.ended) →
      ((run (step p session) s events).calls.waiting.get? id = some n ↔
        ¬(run (step p session) s events).calls.Ended n)) ∧
    (∀ id n, (run (step p session) s events).calls.waiting.get? id = some n →
      (requestIds events)[n]? = some id) ∧
    ((run (step p session) s events).calls.ended.map Prod.fst).Nodup ∧
    (∀ n o, (n, o) ∈ (run (step p session) s events).calls.ended →
      ∃ pre e post, events = pre ++ e :: post ∧ Cause p session (run (step p session) s pre) e n o) ∧
    (∀ pre e post message, events = pre ++ e :: post →
      Delivers p session (run (step p session) s pre) message e →
      (∀ id, AnswerTo message id → (run (step p session) s pre).calls.waiting.get? id = none) →
      (run (step p session) s (pre ++ [e])).calls = (run (step p session) s pre).calls) ∧
    (∀ pre e post, events = pre ++ e :: post → Closes p session (run (step p session) s pre) e →
      (run (step p session) s events).calls.waiting = ∅) := by
  have hinv : (run (step p session) s events).calls.Inv Outcome.Unsent := run_inv h0 hids
  have hnames : (run (step p session) s events).calls.names = requestIds events := by
    rw [run_names, h0]
    rfl
  refine ⟨?_, ?_, hinv.once, fun n o hmem => run_cause h0 hids hmem, ?_, ?_⟩
  · intro n id hid hsent
    refine hinv.exact (hnames ▸ hid) ?_
    rintro (_ | _ | _ | _ | err) hx hunsent
    · exact hunsent
    · exact hunsent
    · exact hunsent
    · exact hunsent
    · exact hsent err hx
  · intro id n hget
    rw [← hnames]
    exact hinv.waits hget
  · intro pre e post message _ hdelivers hlate
    rw [run_concat]
    exact late_reply hdelivers hlate
  · rintro pre e post rfl hclose
    exact run_closed hopen hclose

namespace Sample

/-- A request for the capabilities, with parameters; `none` is an object with a `bigint` in it. -/
def evalRequest (params : Option Json) : RequestMessage :=
  ⟨[(js "type", some (.str (js "eval_request"))), (js "timestamp", some (.num (.ofNat 1700000000))),
    (js "id", some (.str (js "r1"))), (js "action", some (.str (js "capabilities"))), (js "params", params)], by
    show [js "type", js "timestamp", js "id", js "action", js "params"].Nodup
    decide⟩

def sampleSession : SecureSession where
  sessionId := js "s"
  sendKey := List.replicate 32 1
  receiveKey := List.replicate 32 2

/-- A request that is sent, its timer, and a close. -/
def timedOut : List Event :=
  [.request (evalRequest (some (.obj []))) (js "u") (List.replicate 12 0), .timer 0, .close]

def bigintRequest : List Event := [.request (evalRequest none) (js "u") (List.replicate 12 0)]

/-- **A request with a `bigint`** fails with the error of `send`, and waits on. -/
theorem bigint_request_waits :
    (requestIds bigintRequest).Nodup ∧ OpenRequests ({} : Tables).platform sampleSession {} bigintRequest ∧
    (run (step ({} : Tables).platform sampleSession) {} bigintRequest).calls.ended = [(0, .sendFailed .native)] ∧
    ¬ ∀ id, (run (step ({} : Tables).platform sampleSession) {} bigintRequest).client.pending.has id = true ↔
      ∃ n, (requestIds bigintRequest)[n]? = some id ∧
        ¬(run (step ({} : Tables).platform sampleSession) {} bigintRequest).calls.Ended n := by
  have hended : (run (step ({} : Tables).platform sampleSession) {} bigintRequest).calls.ended =
      [(0, .sendFailed .native)] := by decide
  refine ⟨by decide, by unfold OpenRequests; decide, hended, fun h => ?_⟩
  obtain ⟨n, hn, hopen⟩ := (h (js "r1")).mp (by decide)
  have hids : requestIds bigintRequest = [js "r1"] := by decide
  rw [hids] at hn
  obtain ⟨hlt, -⟩ := List.getElem?_eq_some_iff.mp hn
  obtain rfl : n = 0 := by simpa using hlt
  refine hopen ?_
  unfold Calls.Ended
  rw [hended]
  simp

/-- The request of `timedOut` has ended, and no longer waits. -/
theorem timedOut_ended :
    (run (step ({} : Tables).platform sampleSession) {} timedOut).calls.ended = [(0, .timeout)] ∧
    ((run (step ({} : Tables).platform sampleSession) {} timedOut).calls.waiting.get? (js "r1") = some 0 ↔
      ¬(run (step ({} : Tables).platform sampleSession) {} timedOut).calls.Ended 0) := by
  have hended : (run (step ({} : Tables).platform sampleSession) {} timedOut).calls.ended = [(0, .timeout)] := by
    decide +kernel
  refine ⟨hended, (request_correlation sampleSession {} rfl timedOut (by decide)
    (by unfold OpenRequests; decide)).1 0 (js "r1") (by decide) ?_⟩
  intro err
  rw [hended]
  simp

end Sample

/-- **What could not be sent stays.** The call waits under its id and its timer runs on, although its
promise has ended; so the map and the timers are not as before. -/
theorem unsent_request_stays (session : SecureSession) (s : RequestClient) (m : RequestMessage)
    (uuid : JsString) (nonce : Bytes) (err : JsError)
    (hsend : s.requestFrame p session m uuid nonce = .error err) :
    (s.request p session m uuid nonce).calls.Ended s.calls.names.length ∧
    (s.request p session m uuid nonce).calls.waiting.get? (m.id?.getD uuid) = some s.calls.names.length ∧
    s.calls.names.length ∈ (s.request p session m uuid nonce).calls.timers ∧
    ¬((s.request p session m uuid nonce).calls.waiting = s.calls.waiting ∧
      s.calls.names.length ∉ (s.request p session m uuid nonce).calls.timers) := by
  rw [request_calls, hsend]
  have htimer : s.calls.names.length ∈ ((s.calls.start (m.id?.getD uuid)).finish s.calls.names.length
      (.sendFailed err)).timers := by
    rw [Calls.finish_timers]
    show s.calls.names.length ∈ s.calls.timers ++ [s.calls.names.length]
    simp
  refine ⟨Calls.ended_finish.mpr (.inr rfl), ?_, htimer, fun h => h.2 htimer⟩
  rw [Calls.finish_waiting]
  exact OrdMap.get?_set_self _ _ _

namespace Sample

def closedClient : RequestClient := { isOpen := false }

/-- **A request on a closed socket** leaves an entry and a timer. -/
theorem closed_request_traces :
    closedClient.requestFrame ({} : Tables).platform sampleSession (evalRequest (some (.obj []))) (js "u") [] =
      .error (.thrown (js "Tunnel is not connected")) ∧
    ¬ ∀ (s : RequestClient) (m : RequestMessage) (uuid : JsString) (nonce : Bytes) (err : JsError),
      s.requestFrame ({} : Tables).platform sampleSession m uuid nonce = .error err →
      (s.request ({} : Tables).platform sampleSession m uuid nonce).calls.waiting = s.calls.waiting ∧
        s.calls.names.length ∉ (s.request ({} : Tables).platform sampleSession m uuid nonce).calls.timers := by
  have herr : closedClient.requestFrame ({} : Tables).platform sampleSession (evalRequest (some (.obj [])))
      (js "u") [] = .error (.thrown (js "Tunnel is not connected")) := rfl
  exact ⟨herr, fun h => (h _ _ _ _ _ herr).2 (by decide)⟩

theorem closed_request_stays :
    (closedClient.request ({} : Tables).platform sampleSession (evalRequest (some (.obj []))) (js "u")
      []).calls.waiting.get? (js "r1") = some 0 ∧
    (0 : ℕ) ∈ (closedClient.request ({} : Tables).platform sampleSession (evalRequest (some (.obj []))) (js "u")
      []).calls.timers := by
  have h := unsent_request_stays (p := ({} : Tables).platform) sampleSession closedClient
    (evalRequest (some (.obj []))) (js "u") [] (.thrown (js "Tunnel is not connected")) rfl
  exact ⟨h.2.1, h.2.2.1⟩

end Sample

end RequestClient

end ConsensusNode.Tunnel
