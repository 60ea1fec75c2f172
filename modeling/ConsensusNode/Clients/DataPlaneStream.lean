import ConsensusNode.Js.Buffer
import ConsensusNode.Js.Json
import ConsensusNode.Lib.Mailbox

/-! # The two transports of the data plane

`startDataPlaneStream` of `clients/data-plane-stream.ts` and `wsServerTransport` of `runtime/data-route.ts`:
two adapters with one queue. What the session does with its transport is left open: any calls in any order,
until it ends with or without an error.

* `transports_fifo_close_once`: both queues are first in, first out; a stream is closed once, and not after a
  failure; and its `onDone` runs once, when the session ends. -/

namespace ConsensusNode.Clients

open Js Lib Lib.Run

/-! ### A stream of the control tunnel -/

/-- The calls of the hooks. -/
inductive HookCall where
  | sendData (data : Bytes)
  | sendClose (reason : JsString)
  | onError (error : JsError)
  | onDone
deriving DecidableEq

def HookCall.isSendClose : HookCall → Bool
  | sendClose _ => true
  | _ => false

structure DataPlaneStream where
  box : Mailbox Bytes JsError := {}
  closed : Bool := false
  calls : List HookCall := []

namespace DataPlaneStream

def call (s : DataPlaneStream) (c : HookCall) : DataPlaneStream := { s with calls := s.calls ++ [c] }

def closeOnce (s : DataPlaneStream) (reason : JsString) : DataPlaneStream :=
  if s.closed then s else { s with closed := true }.call (.sendClose reason)

inductive Event where
  | push (data : Bytes)
  | fail (reason : JsError)
  /-- The session calls its transport. -/
  | recv
  | send (data : Bytes)
  | close
  /-- The session ends, or `resolveDeps` has failed; `throws`: a call of `sendClose` throws at once. -/
  | ended (error : Option JsError) (throws : Bool)

/-- The `catch` block. -/
def catchBlock (s : DataPlaneStream) : Option JsError → DataPlaneStream
  | some e => s.call (.onError e)
  | none => s

/-- The `finally` block, which an exception of `sendClose` leaves early. -/
def finallyBlock (s : DataPlaneStream) (throws : Bool) : DataPlaneStream :=
  if s.closed = false ∧ throws = true then s.closeOnce (js "data-plane closed")
  else (s.closeOnce (js "data-plane closed")).call .onDone

def step (s : DataPlaneStream) : Event → DataPlaneStream
  | .push data => { s with box := s.box.push data }
  | .fail reason => { s with closed := true, box := s.box.fail reason }
  | .recv => { s with box := s.box.recv }
  | .send data => s.call (.sendData data)
  | .close => s.closeOnce (js "data-plane complete")
  | .ended error throws => (s.catchBlock error).finallyBlock throws

/-- What an event is for the queue. -/
def Event.box? : Event → Option (Mailbox.Event Bytes JsError)
  | .push data => some (.push data)
  | .fail reason => some (.fail reason)
  | .recv => some .recv
  | _ => none

/-- The session ends. -/
def Event.isEnded : Event → Bool
  | .ended _ _ => true
  | _ => false

/-- The calls of `sendClose`. -/
def closes (s : DataPlaneStream) : ℕ := s.calls.countP HookCall.isSendClose

/-- The calls of `onDone`. -/
def dones (s : DataPlaneStream) : ℕ := s.calls.count .onDone

end DataPlaneStream

/-! ### A WebSocket -/

inductive RawWsData where
  | buffer (b : Bytes)
  | arrayBuffer (b : Bytes)
  | chunks (bs : List Bytes)

def toBuffer : RawWsData → Bytes
  | .buffer b => b
  | .arrayBuffer b => b
  | .chunks bs => bs.flatten

structure WsServerTransport where
  box : Mailbox Bytes JsError := {}
  /-- What `socket.send` and `socket.close` are called with. -/
  sent : List Bytes := []
  closeCodes : List (Option ℕ) := []

namespace WsServerTransport

inductive Event where
  | message (data : RawWsData)
  /-- The close and error events of the socket. -/
  | closed
  | error (err : JsError)
  /-- The session calls its transport. -/
  | recv
  | send (data : Bytes)
  | close (code : Option ℕ)

def step (s : WsServerTransport) : Event → WsServerTransport
  | .message data => { s with box := s.box.push (toBuffer data) }
  | .closed => { s with box := s.box.fail (.thrown (js "connection closed")) }
  | .error err => { s with box := s.box.fail err }
  | .recv => { s with box := s.box.recv }
  | .send data => { s with sent := s.sent ++ [data] }
  | .close code => { s with closeCodes := s.closeCodes ++ [code] }

/-- What an event is for the queue. -/
def Event.box? : Event → Option (Mailbox.Event Bytes JsError)
  | .message data => some (.push (toBuffer data))
  | .closed => some (.fail (.thrown (js "connection closed")))
  | .error err => some (.fail err)
  | .recv => some .recv
  | _ => none

theorem carries : Mailbox.Carries step box Event.box? := by
  intro s e
  cases e <;> rfl

end WsServerTransport

/-! ### Closing once -/

namespace DataPlaneStream

variable {s : DataPlaneStream}

section Parts

variable (reason : JsString) (error : Option JsError) (throws : Bool)

@[simp] theorem closeOnce_box : (s.closeOnce reason).box = s.box := by
  unfold closeOnce
  split_ifs <;> rfl

@[simp] theorem closeOnce_closed : (s.closeOnce reason).closed = true := by
  unfold closeOnce
  split_ifs with h
  · exact h
  · rfl

@[simp] theorem catchBlock_box : (s.catchBlock error).box = s.box := by cases error <;> rfl

@[simp] theorem catchBlock_closed : (s.catchBlock error).closed = s.closed := by cases error <;> rfl

@[simp] theorem finallyBlock_box : (s.finallyBlock throws).box = s.box := by
  unfold finallyBlock
  split_ifs <;> exact closeOnce_box _

@[simp] theorem finallyBlock_closed : (s.finallyBlock throws).closed = true := by
  unfold finallyBlock
  split_ifs <;> exact closeOnce_closed _

theorem call_closes (c : HookCall) : (s.call c).closes = s.closes + if c.isSendClose = true then 1 else 0 := by
  unfold closes call
  rw [List.countP_append, List.countP_singleton]

theorem call_dones (c : HookCall) : (s.call c).dones = s.dones + if c = .onDone then 1 else 0 := by
  unfold dones call
  rw [List.count_append, List.count_singleton]
  simp

theorem closeOnce_closes : (s.closeOnce reason).closes = s.closes + if s.closed = true then 0 else 1 := by
  unfold closeOnce
  split_ifs
  · rfl
  · exact call_closes _

theorem closeOnce_dones : (s.closeOnce reason).dones = s.dones := by
  unfold closeOnce
  split_ifs
  · rfl
  · exact call_dones _

theorem catchBlock_closes : (s.catchBlock error).closes = s.closes := by
  cases error with
  | none => rfl
  | some e => exact call_closes _

theorem catchBlock_dones : (s.catchBlock error).dones = s.dones := by
  cases error with
  | none => rfl
  | some e => exact call_dones _

theorem finallyBlock_closes :
    (s.finallyBlock throws).closes = s.closes + if s.closed = true then 0 else 1 := by
  have hdone : ((s.closeOnce (js "data-plane closed")).call .onDone).closes =
      (s.closeOnce (js "data-plane closed")).closes := call_closes _
  unfold finallyBlock
  by_cases h : s.closed = false ∧ throws = true
  · rw [if_pos h]
    exact closeOnce_closes _
  · rw [if_neg h, hdone]
    exact closeOnce_closes _

theorem finallyBlock_dones :
    (s.finallyBlock throws).dones = s.dones + if s.closed = false ∧ throws = true then 0 else 1 := by
  unfold finallyBlock
  split_ifs
  · exact closeOnce_dones _
  · rw [call_dones, closeOnce_dones, if_pos rfl]

end Parts

theorem carries : Mailbox.Carries step box Event.box? := by
  intro s e
  cases e with
  | close => exact closeOnce_box _
  | ended error throws =>
    show (finallyBlock _ _).box = s.box
    rw [finallyBlock_box, catchBlock_box]
  | _ => rfl

/-- The calls of `sendClose` that may still come. -/
def budget (s : DataPlaneStream) : ℕ := if s.closed = true then 0 else 1

theorem step_budget (s : DataPlaneStream) (e : Event) :
    (step s e).closes + (step s e).budget ≤ s.closes + s.budget := by
  cases e with
  | push data => exact le_rfl
  | fail reason => exact Nat.add_le_add_left (Nat.zero_le _) _
  | recv => exact le_rfl
  | send data =>
    show (s.call _).closes + s.budget ≤ _
    rw [call_closes]
    exact le_rfl
  | close =>
    show (s.closeOnce _).closes + (s.closeOnce _).budget ≤ _
    rw [closeOnce_closes, budget, closeOnce_closed]
    exact le_rfl
  | ended error throws =>
    show (finallyBlock _ _).closes + (finallyBlock _ _).budget ≤ _
    rw [finallyBlock_closes, budget, finallyBlock_closed, catchBlock_closes, catchBlock_closed]
    exact le_rfl

theorem step_closed (h : s.closed = true) (e : Event) :
    (step s e).closed = true ∧ (step s e).closes = s.closes := by
  cases e with
  | push data => exact ⟨h, rfl⟩
  | fail reason => exact ⟨rfl, rfl⟩
  | recv => exact ⟨h, rfl⟩
  | send data => exact ⟨h, call_closes _⟩
  | close =>
    refine ⟨closeOnce_closed _, ?_⟩
    show (s.closeOnce _).closes = _
    rw [closeOnce_closes, if_pos h, Nat.add_zero]
  | ended error throws =>
    refine ⟨finallyBlock_closed _, ?_⟩
    show (finallyBlock _ _).closes = _
    rw [finallyBlock_closes, catchBlock_closed, if_pos h, catchBlock_closes, Nat.add_zero]

theorem step_dones (s : DataPlaneStream) {e : Event} (hthrows : ∀ error, e ≠ .ended error true) :
    (step s e).dones = s.dones + if e.isEnded = true then 1 else 0 := by
  cases e with
  | push data => rfl
  | fail reason => rfl
  | recv => rfl
  | send data => exact call_dones _
  | close => exact closeOnce_dones _
  | ended error throws =>
    have hreturns : ¬((s.catchBlock error).closed = false ∧ throws = true) := by
      rintro ⟨-, rfl⟩
      exact hthrows error rfl
    show (finallyBlock _ _).dones = _
    rw [finallyBlock_dones, if_neg hreturns, catchBlock_dones]
    rfl

theorem run_budget (events : List Event) : (run step {} events).closes + (run step {} events).budget ≤ 1 := by
  induction events using List.reverseRecOn with
  | nil => exact le_rfl
  | append_singleton events e ih =>
    rw [run_concat]
    exact (step_budget _ e).trans ih

theorem run_closed (h : s.closed = true) (events : List Event) : (run step s events).closes = s.closes := by
  induction events generalizing s with
  | nil => rfl
  | cons e events ih =>
    obtain ⟨hclosed, hcloses⟩ := step_closed h e
    rw [run_cons, ih hclosed, hcloses]

theorem run_dones {events : List Event} (hthrows : ∀ error, Event.ended error true ∉ events) :
    (run step {} events).dones = events.countP Event.isEnded := by
  induction events using List.reverseRecOn with
  | nil => rfl
  | append_singleton events e ih =>
    rw [run_concat, step_dones, ih fun error hmem => hthrows error (List.mem_append_left _ hmem),
      List.countP_append, List.countP_singleton]
    rintro error rfl
    exact hthrows error (by simp)

end DataPlaneStream

/-- **Both transports are queues that close once.** In every run of either, the calls of `recv` are settled
in their order and receive what was pushed, in its order and without a gap; calls and buffers never wait at
the same time; and a call is rejected only after a failure, and when all buffers pushed before have been
handed out. A stream calls `sendClose` once at most and not after a failure. If that hook does not throw at
once, every end of the session calls `onDone` once. -/
theorem transports_fifo_close_once :
    (∀ events : List DataPlaneStream.Event,
      Mailbox.FifoRun DataPlaneStream.step DataPlaneStream.box DataPlaneStream.Event.box? {} events) ∧
    (∀ events : List WsServerTransport.Event,
      Mailbox.FifoRun WsServerTransport.step WsServerTransport.box WsServerTransport.Event.box? {} events) ∧
    ∀ events : List DataPlaneStream.Event,
      (run DataPlaneStream.step {} events).closes ≤ 1 ∧
      (∀ pre reason post, events = pre ++ .fail reason :: post →
        (run DataPlaneStream.step {} events).closes = (run DataPlaneStream.step {} pre).closes) ∧
      ((∀ error, DataPlaneStream.Event.ended error true ∉ events) →
        (run DataPlaneStream.step {} events).dones = events.countP DataPlaneStream.Event.isEnded) := by
  refine ⟨fun events => DataPlaneStream.carries.fifo rfl events,
    fun events => WsServerTransport.carries.fifo rfl events, fun events => ⟨?_, ?_, DataPlaneStream.run_dones⟩⟩
  · exact (Nat.le_add_right _ _).trans (DataPlaneStream.run_budget events)
  · rintro pre reason post rfl
    rw [run_append, run_cons]
    exact DataPlaneStream.run_closed rfl post

namespace Sample

/-- A session that is served: one message is there before it is asked for, one comes later. -/
def servedSession : List DataPlaneStream.Event :=
  [.push [1], .recv, .send [2], .recv, .push [3], .send [4], .close, .ended none false]

theorem servedSession_closes :
    (run DataPlaneStream.step {} servedSession).box.received = [[1], [3]] ∧
    (run DataPlaneStream.step {} servedSession).closes ≤ 1 ∧
    (run DataPlaneStream.step {} servedSession).dones = 1 := by
  obtain ⟨hfifo, -, hclose⟩ := transports_fifo_close_once
  obtain ⟨hcloses, -, hdones⟩ := hclose servedSession
  refine ⟨?_, hcloses, hdones ?_⟩
  · have hhanded := (hfifo servedSession).fifo.handed
    rwa [show (run DataPlaneStream.step {} servedSession).box.inbox = [] from rfl, List.append_nil] at hhanded
  · intro error hmem
    simp [servedSession] at hmem

end Sample

end ConsensusNode.Clients
