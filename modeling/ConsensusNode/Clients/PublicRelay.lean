import ConsensusNode.Clients.StreamAccounting
import ConsensusNode.Lib.Trace

/-! # What a public tunnel carries

A client stream of a public tunnel and the owner of the tunnel talk through the owner's stream, in frames with
the number of the client stream. All streams of the tunnel share it.

* `Pipe`: what the two ends should get: each message of the client as one frame, each data frame of the owner as
  one message, in their order, until one end, the owner stream or the tunnel closes.
* `relayed_step`: one step of the handlers is one step of the pipe.
* `Pipe.session`: the pipe carries data, and then at most one end of the stream to one of the two ends.
* `relay_exact`: in every run the two ends get the frame that opens the stream and then exactly what the pipe
  gives them. -/

namespace ConsensusNode.Clients

open Js Lib.Run

/-! ### The pipe -/

/-- What the ends of a stream get: the owner a frame, the client bytes or the end. -/
inductive Relayed where
  | toOwner (type : UInt8) (payload : Bytes)
  | toClient (payload : Bytes)
  | closed (reason : JsString)
deriving DecidableEq

def Relayed.isData : Relayed → Bool
  | .toOwner type _ => type == PublicTunnelFrame.streamData.code
  | .toClient _ => true
  | .closed _ => false

/-- The end of a stream, for one of its two ends. -/
def Relayed.isEnd : Relayed → Bool
  | .toOwner type _ => type == PublicTunnelFrame.streamReset.code
  | .toClient _ => false
  | .closed _ => true

namespace Pipe

/-- A frame of the owner for the stream: what the client gets, and whether it is the last one. -/
def ofOwner (f : DecodedFrame) : List Relayed × Bool :=
  if f.type = PublicTunnelFrame.streamData.code then ([.toClient f.payload], false)
  else if f.type = PublicTunnelFrame.streamEnd.code then ([.closed (js "target closed")], true)
  else if f.type = PublicTunnelFrame.streamReset.code then ([.closed (js "target reset")], true)
  else ([], false)

variable (O : JsString) (k : ℕ) (sid : JsString)

/-- The message `data` on the stream `id`: what it carries between the client stream `sid` and the owner stream
`O`, on which it has the number `k`, and whether it is the last one. A stream with the empty id gets nothing from
the owner. -/
def onData (id data : JsString) : List Relayed × Bool :=
  if id = sid then ([.toOwner PublicTunnelFrame.streamData.code (decodeBase64 data)], false)
  else if id = O then
    match decodePublicTunnelFrame (decodeBase64 data) with
    | .ok f => if f.streamId = k ∧ sid ≠ [] then ofOwner f else ([], false)
    | .error _ => ([], false)
  else ([], false)

/-- The end of the stream `id`. -/
def onClose (id : JsString) : List Relayed × Bool :=
  if id = sid then ([.toOwner PublicTunnelFrame.streamReset.code []], true)
  else if id = O then ([.closed (js "tunnel owner closed")], true)
  else ([], false)

def carries : ControlEvent → List Relayed × Bool
  | .streamData id data => onData O k sid id data
  | .streamClose id => onClose O sid id
  | .connectionClosed => ([], true)
  | _ => ([], false)

/-- The state says whether the stream is open. -/
def step (live : Bool) (e : ControlEvent) : Bool := live && !(carries O k sid e).2

def out (live : Bool) (e : ControlEvent) : List Relayed := if live then (carries O k sid e).1 else []

/-- What one event carries: data, or nothing more than the end. -/
def Carried (r : List Relayed × Bool) : Prop :=
  (r.2 = false ∧ ∀ x ∈ r.1, x.isData = true) ∨ (r.2 = true ∧ r.1.length ≤ 1 ∧ ∀ x ∈ r.1, x.isEnd = true)

theorem Carried.data {xs : List Relayed} (h : ∀ x ∈ xs, x.isData = true) : Carried (xs, false) := .inl ⟨rfl, h⟩

theorem Carried.last {x : Relayed} (h : x.isEnd = true) : Carried ([x], true) := by
  refine .inr ⟨rfl, le_rfl, fun y hy => ?_⟩
  rw [List.mem_singleton.mp hy]
  exact h

theorem Carried.nothing : Carried ([], false) := .data (List.forall_mem_nil _)

theorem carried_ofOwner (f : DecodedFrame) : Carried (ofOwner f) := by
  unfold ofOwner
  split_ifs
  · exact .data fun x hx => by rw [List.mem_singleton.mp hx]; rfl
  · exact .last rfl
  · exact .last rfl
  · exact .nothing

theorem carried (e : ControlEvent) : Carried (carries O k sid e) := by
  cases e with
  | streamData id data =>
    show Carried (onData O k sid id data)
    unfold onData
    split_ifs
    · exact .data fun x hx => by rw [List.mem_singleton.mp hx]; rfl
    · split
      · split_ifs
        · exact carried_ofOwner _
        · exact .nothing
      · exact .nothing
    · exact .nothing
  | streamClose id =>
    show Carried (onClose O sid id)
    unfold onClose
    split_ifs
    · exact .last rfl
    · exact .last rfl
    · exact .nothing
  | connectionClosed => exact .inr ⟨rfl, Nat.zero_le 1, List.forall_mem_nil _⟩
  | _ => exact .nothing

theorem trace_closed (events : List ControlEvent) : trace (step O k sid) (out O k sid) false events = [] := by
  induction events with
  | nil => rfl
  | cons e events ih => exact ih

/-- **A session**: data, and then at most one end of the stream. -/
theorem session (events : List ControlEvent) : ∃ body last,
    trace (step O k sid) (out O k sid) true events = body ++ last ∧ (∀ x ∈ body, x.isData = true) ∧
      last.length ≤ 1 ∧ ∀ x ∈ last, x.isEnd = true := by
  induction events with
  | nil => exact ⟨[], [], rfl, List.forall_mem_nil _, Nat.zero_le 1, List.forall_mem_nil _⟩
  | cons e events ih =>
    have htrace : trace (step O k sid) (out O k sid) true (e :: events) =
        (carries O k sid e).1 ++ trace (step O k sid) (out O k sid) (step O k sid true e) events := rfl
    rw [htrace]
    rcases carried O k sid e with ⟨hmore, hdata⟩ | ⟨hlast, hlength, hend⟩
    · obtain ⟨body, last, heq, hbody, hrest⟩ := ih
      have hlive : step O k sid true e = true := by
        unfold step
        rw [hmore]
        rfl
      rw [hlive, heq]
      refine ⟨(carries O k sid e).1 ++ body, last, (List.append_assoc ..).symm, fun x hx => ?_, hrest⟩
      rcases List.mem_append.mp hx with hx | hx
      · exact hdata x hx
      · exact hbody x hx
    · have hclosed : step O k sid true e = false := by
        unfold step
        rw [hlast]
        rfl
      rw [hclosed, trace_closed, List.append_nil]
      exact ⟨[], (carries O k sid e).1, rfl, List.forall_mem_nil _, hlength, hend⟩

end Pipe

/-! ### What the handlers pass on -/

section Observed

variable (O : JsString) (k : ℕ) (sid : JsString)

/-- The part of an effect that is about the stream. A pong is about no stream. -/
def ControlEffect.relayed? : ControlEffect → Option Relayed
  | .streamData id data =>
    if id = sid then some (.toClient data)
    else if id = O then
      match decodePublicTunnelFrame data with
      | .ok f =>
        if f.streamId = k ∧ f.type ≠ PublicTunnelFrame.pong.code then some (.toOwner f.type f.payload) else none
      | .error _ => none
    else none
  | .streamClose id reason => if id = sid then some (.closed reason) else none
  | _ => none

/-- What the two ends of the stream get when a message is handled. -/
def relayed (p : Platform) (s : ControlState) (e : ControlEvent) : List Relayed :=
  if e.isMessage then (s.handle p e).2.filterMap (ControlEffect.relayed? O k sid) else []

end Observed

variable {p : Platform} {O sid : JsString} {k : ℕ}

theorem relayed?_frame {O' : JsString} {type : PublicTunnelFrame} {k' : ℕ} {payload frame : Bytes}
    (h : encodePublicTunnelFrame type k' payload = .ok frame) (hsid : O' ≠ sid) :
    (ControlEffect.streamData O' frame).relayed? O k sid =
      if O' = O ∧ k' = k ∧ type ≠ .pong then some (.toOwner type.code payload) else none := by
  have hcode : type.code ≠ PublicTunnelFrame.pong.code ↔ type ≠ .pong := by cases type <;> decide
  unfold ControlEffect.relayed?
  dsimp only
  rw [if_neg hsid, decode_encodePublicTunnelFrame h]
  by_cases hO : O' = O
  · simp only [hO, if_true, true_and, hcode]
  · rw [if_neg hO, if_neg fun h => hO h.1]

theorem relayed_sendFrame_other {O' : JsString} {type : PublicTunnelFrame} {k' : ℕ} {payload : Bytes}
    (hsid : O' ≠ sid) (h : O' = O → k' = k → type = .pong) :
    (sendFrame O' type k' payload).filterMap (ControlEffect.relayed? O k sid) = [] := by
  unfold sendFrame
  split
  · rename_i frame hframe
    have hnone : (ControlEffect.streamData O' frame).relayed? O k sid = none := by
      rw [relayed?_frame hframe hsid, if_neg fun hc => hc.2.2 (h hc.1 hc.2.1)]
    rw [List.filterMap_cons_none hnone, List.filterMap_nil]
  · rfl

theorem relayed_sendFrame {type : PublicTunnelFrame} {payload : Bytes} (hk : k < 2 ^ 32) (hsid : O ≠ sid)
    (htype : type ≠ .pong) :
    (sendFrame O type k payload).filterMap (ControlEffect.relayed? O k sid) = [.toOwner type.code payload] := by
  have henc : encodePublicTunnelFrame type k payload = .ok (type.code :: beBytes 4 k ++ payload) := if_pos hk
  unfold sendFrame
  rw [henc]
  have hsome := relayed?_frame (O := O) (k := k) henc hsid
  rw [if_pos ⟨rfl, rfl, htype⟩] at hsome
  rw [List.filterMap_cons_some hsome, List.filterMap_nil]

/-- All streams of an owner are closed: this one is among them or not. -/
theorem relayed_closeAll {ids : List JsString} (hnodup : ids.Nodup) (reason : JsString) :
    (ids.map fun id => ControlEffect.streamClose id reason).filterMap (ControlEffect.relayed? O k sid) =
      if sid ∈ ids then [.closed reason] else [] := by
  induction ids with
  | nil => rfl
  | cons id ids ih =>
    obtain ⟨hid, hrest⟩ := List.nodup_cons.mp hnodup
    have htail := ih hrest
    rw [List.map_cons]
    by_cases hsid : id = sid
    · have hsome : (ControlEffect.streamClose id reason).relayed? O k sid = some (.closed reason) := if_pos hsid
      rw [List.filterMap_cons_some hsome, htail, if_neg (hsid ▸ hid), if_pos (hsid ▸ List.mem_cons_self ..)]
    · have hnone : (ControlEffect.streamClose id reason).relayed? O k sid = none := if_neg hsid
      have hmem : sid ∈ id :: ids ↔ sid ∈ ids := by
        rw [List.mem_cons]
        exact or_iff_right fun h => hsid h.symm
      rw [List.filterMap_cons_none hnone, htail]
      exact if_congr hmem.symm rfl rfl

/-! ### One message -/

/-- After the events `pre`: only `sid` is ever number `k` of the owner stream `O`, it is nothing else, and neither
stream takes the other role. -/
structure Opened (p : Platform) (O : JsString) (k : ℕ) (sid : JsString) (pre : List ControlEvent)
    (s : ControlState) : Prop where
  routed : Routed p pre s.publicTunnelOwners s.publicTunnelStreams
  once : ∀ {O' k'}, OpenedOn p pre O' k' sid → O' = O ∧ k' = k
  only : ∀ {id}, OpenedOn p pre O k id → id = sid
  notOwner : ∀ {T o}, s.publicTunnelOwners.get? T = some o → o.streamId ≠ sid
  notLinked : s.publicTunnelStreams.get? O = none

variable {pre : List ControlEvent} {s : ControlState}

namespace Opened

/-- While the stream is open, it is number `k` of the owner with the stream `O`. -/
theorem linked (h : Opened p O k sid pre s) {l : TunnelLink} (hl : s.publicTunnelStreams.get? sid = some l) :
    l.ownerStreamId = k ∧ ∃ o, s.publicTunnelOwners.get? l.tunnelId = some o ∧ o.streamId = O ∧
      o.ownerToServer.get? k = some sid ∧ o.serverToOwner.get? sid = some k := by
  obtain ⟨o, ho, hslot, hback⟩ := h.routed.link hl
  obtain ⟨hO, hk⟩ := h.once (h.routed.made ho hslot)
  rw [hk] at hslot hback
  exact ⟨hk, o, ho, hO, hslot, hback⟩

/-- What the owner with the stream `O` has under the number `k`. -/
theorem slot (h : Opened p O k sid pre s) {T : MapKey} {o : TunnelOwner} {id : JsString}
    (ho : s.publicTunnelOwners.get? T = some o) (hO : o.streamId = O) (hid : o.ownerToServer.get? k = some id) :
    id = sid := by
  have hmade := h.routed.made ho hid
  rw [hO] at hmade
  exact h.only hmade

/-- An entry of an owner is about another stream, unless the owner's stream is `O` and the number is `k`. -/
theorem other (h : Opened p O k sid pre s) {T : MapKey} {o : TunnelOwner} {n : ℕ} {id : JsString}
    (ho : s.publicTunnelOwners.get? T = some o) (hid : o.ownerToServer.get? n = some id)
    (hne : o.streamId = O → n ≠ k) : id ≠ sid := by
  rintro rfl
  have hmade := h.routed.made ho hid
  obtain ⟨hO, hn⟩ := h.once hmade
  exact hne hO hn

theorem isOpen_iff (h : Opened p O k sid pre s) {T : MapKey} {o : TunnelOwner}
    (ho : s.publicTunnelOwners.get? T = some o) (hO : o.streamId = O) :
    s.publicTunnelStreams.has sid = true ↔ o.ownerToServer.get? k = some sid := by
  constructor
  · intro hhas
    obtain ⟨l, hl⟩ := Option.isSome_iff_exists.mp hhas
    obtain ⟨-, o', ho', hO', hslot, -⟩ := h.linked hl
    have hT := h.routed.ownerInj ho' ho (hO'.trans hO.symm)
    rw [hT, ho] at ho'
    cases ho'
    exact hslot
  · intro hslot
    exact Option.isSome_iff_exists.mpr ⟨_, h.routed.slot ho hslot⟩

/-- Without an owner the stream is not open. -/
theorem not_open (h : Opened p O k sid pre s) (hnone : s.ownerEntry? O = none) :
    s.publicTunnelStreams.has sid = false := by
  rw [Bool.eq_false_iff]
  intro hhas
  obtain ⟨l, hl⟩ := Option.isSome_iff_exists.mp hhas
  obtain ⟨-, o, ho, hO, -⟩ := h.linked hl
  rw [← hO, h.routed.ownerEntry? ho] at hnone
  cases hnone

end Opened

/-- A handler passes on what it should, and keeps the stream open or not. -/
structure Does (O : JsString) (k : ℕ) (sid : JsString) (s : ControlState)
    (result : ControlState × List ControlEffect) (r : List Relayed × Bool) : Prop where
  out : result.2.filterMap (ControlEffect.relayed? O k sid) = if s.publicTunnelStreams.has sid then r.1 else []
  live : result.1.publicTunnelStreams.has sid = (s.publicTunnelStreams.has sid && !r.2)

/-- Nothing for this stream. -/
theorem Does.nothing {result : ControlState × List ControlEffect}
    (hlive : result.1.publicTunnelStreams.has sid = s.publicTunnelStreams.has sid)
    (hout : result.2.filterMap (ControlEffect.relayed? O k sid) = []) : Does O k sid s result ([], false) where
  out := by rw [hout, ite_self]
  live := by rw [hlive, Bool.not_false, Bool.and_true]

/-- The stream is closed already. -/
theorem Does.late {result : ControlState × List ControlEffect} (r : List Relayed × Bool)
    (hclosed : s.publicTunnelStreams.has sid = false)
    (hlive : result.1.publicTunnelStreams.has sid = false)
    (hout : result.2.filterMap (ControlEffect.relayed? O k sid) = []) : Does O k sid s result r where
  out := by rw [hout, hclosed, if_neg Bool.false_ne_true]
  live := by rw [hlive, hclosed, Bool.false_and]

/-- The stream is open. -/
theorem Does.now {result : ControlState × List ControlEffect} {r : List Relayed × Bool}
    (hopen : s.publicTunnelStreams.has sid = true)
    (hlive : result.1.publicTunnelStreams.has sid = !r.2)
    (hout : result.2.filterMap (ControlEffect.relayed? O k sid) = r.1) : Does O k sid s result r where
  out := by rw [hout, hopen, if_pos rfl]
  live := by rw [hlive, hopen, Bool.true_and]

theorem has_cleanup (s : ControlState) (id : JsString) :
    (s.cleanupPublicTunnelStream id).publicTunnelStreams.has sid =
      (s.publicTunnelStreams.has sid && decide (sid ≠ id)) := by
  unfold ControlState.cleanupPublicTunnelStream
  split
  · rename_i hnone
    by_cases hid : sid = id
    · have hnot : s.publicTunnelStreams.has sid = false := by
        rw [hid]
        exact OrdMap.not_has_iff.mpr hnone
      rw [hnot, Bool.false_and]
    · rw [decide_eq_true hid, Bool.and_true]
  · show (s.publicTunnelStreams.delete id).has sid = _
    unfold OrdMap.has
    rw [OrdMap.get?_delete]
    by_cases hid : sid = id
    · rw [if_pos hid, decide_eq_false (not_not.mpr hid), Bool.and_false]
      rfl
    · rw [if_neg hid, decide_eq_true hid, Bool.and_true]

namespace Opened

/-- Another stream is opened. -/
theorem does_open (h : Opened p O k sid pre s) {id : JsString} (hid : id ≠ sid) (target : Option JsString)
    (hnext : ∀ {o t init}, parseStreamTarget p target = some (.publicTunnelStream t init) →
      s.publicTunnelOwners.get? (mapKey s.opens t) = some o → o.streamId = O → o.nextStreamId ≠ k) :
    Does O k sid s (s.handleOpen p id target) ([], false) := by
  unfold ControlState.handleOpen
  dsimp only
  split
  · exact .nothing rfl rfl
  split
  · exact .nothing rfl rfl
  · rename_i t init ht
    unfold ControlState.openPublicStream
    split
    · refine .nothing rfl ?_
      have hnone : (ControlEffect.streamClose id (js "tunnel owner unavailable")).relayed? O k sid = none :=
        if_neg hid
      rw [List.filterMap_cons_none hnone, List.filterMap_nil]
    · rename_i o ho
      refine .nothing ?_ ?_
      · show (s.publicTunnelStreams.set id _).has sid = _
        unfold OrdMap.has
        rw [OrdMap.get?_set_ne _ _ hid.symm]
      · refine relayed_sendFrame_other (h.notOwner ho) fun hO hk => ?_
        exact absurd hk (hnext ht ho hO)
  · exact .nothing rfl rfl
  · exact .nothing rfl rfl
  · split
    · exact .nothing rfl rfl
    · exact .nothing rfl rfl

/-- A frame of an owner for the stream. -/
theorem does_frame (h : Opened p O k sid pre s) {T : MapKey} {o : TunnelOwner}
    (ho : s.publicTunnelOwners.get? T = some o) {f : DecodedFrame}
    (hslot : o.ownerToServer.get? f.streamId = some sid) (hne : sid ≠ []) :
    Does O k sid s (s.handleOwnerFrame o f) (Pipe.ofOwner f) := by
  have hopen : s.publicTunnelStreams.has sid = true :=
    Option.isSome_iff_exists.mpr ⟨_, h.routed.slot ho hslot⟩
  have hclosed : (s.cleanupPublicTunnelStream sid).publicTunnelStreams.has sid = false := by
    rw [has_cleanup, decide_eq_false (not_not.mpr rfl), Bool.and_false]
  have hdata : (ControlEffect.streamData sid f.payload).relayed? O k sid = some (.toClient f.payload) := if_pos rfl
  have hclose : ∀ reason, (ControlEffect.streamClose sid reason).relayed? O k sid = some (.closed reason) :=
    fun _ => if_pos rfl
  unfold ControlState.handleOwnerFrame Pipe.ofOwner
  by_cases hping : f.type = PublicTunnelFrame.ping.code
  · rw [if_pos hping, hping]
    have hout : (sendFrame o.streamId .pong 0 []).filterMap (ControlEffect.relayed? O k sid) = [] :=
      relayed_sendFrame_other (h.notOwner ho) fun _ _ => rfl
    exact .now hopen hopen hout
  rw [if_neg hping]
  by_cases hpong : f.type = PublicTunnelFrame.pong.code
  · rw [if_pos hpong, hpong]
    exact .now hopen hopen rfl
  rw [if_neg hpong, hslot]
  rcases sid with _ | ⟨c, rest⟩
  · exact absurd rfl hne
  dsimp only
  by_cases htype : f.type = PublicTunnelFrame.streamData.code
  · rw [if_pos htype, if_pos htype]
    exact .now hopen hopen (List.filterMap_cons_some hdata)
  rw [if_neg htype, if_neg htype]
  by_cases hend : f.type = PublicTunnelFrame.streamEnd.code
  · rw [if_pos hend, if_pos hend]
    exact .now hopen hclosed (List.filterMap_cons_some (hclose _))
  rw [if_neg hend, if_neg hend]
  by_cases hreset : f.type = PublicTunnelFrame.streamReset.code
  · rw [if_pos hreset, if_pos hreset]
    exact .now hopen hclosed (List.filterMap_cons_some (hclose _))
  · rw [if_neg hreset, if_neg hreset]
    exact .now hopen hopen rfl

/-- A frame of an owner for another stream, or for none. -/
theorem does_otherFrame (h : Opened p O k sid pre s) {T : MapKey} {o : TunnelOwner}
    (ho : s.publicTunnelOwners.get? T = some o) {f : DecodedFrame}
    (hother : ∀ id, o.ownerToServer.get? f.streamId = some id → id ≠ [] → id ≠ sid) :
    Does O k sid s (s.handleOwnerFrame o f) ([], false) := by
  unfold ControlState.handleOwnerFrame
  split
  · have hout : (sendFrame o.streamId .pong 0 []).filterMap (ControlEffect.relayed? O k sid) = [] :=
      relayed_sendFrame_other (h.notOwner ho) fun _ _ => rfl
    exact .nothing rfl hout
  split
  · exact .nothing rfl rfl
  split
  · exact .nothing rfl rfl
  · exact .nothing rfl rfl
  · rename_i id hne hslot
    have hid := hother id hslot hne
    have hO : id ≠ O := by
      rintro rfl
      have hnone := h.notLinked
      rw [h.routed.slot ho hslot] at hnone
      cases hnone
    have hlive : (s.cleanupPublicTunnelStream id).publicTunnelStreams.has sid = s.publicTunnelStreams.has sid := by
      rw [has_cleanup, decide_eq_true hid.symm, Bool.and_true]
    have hclose : ∀ reason, (ControlEffect.streamClose id reason).relayed? O k sid = none := fun _ => if_neg hid
    have hdata : (ControlEffect.streamData id f.payload).relayed? O k sid = none := by
      unfold ControlEffect.relayed?
      dsimp only
      rw [if_neg hid, if_neg hO]
    split
    · exact .nothing rfl (List.filterMap_cons_none hdata)
    split
    · exact .nothing hlive (List.filterMap_cons_none (hclose _))
    split
    · exact .nothing hlive (List.filterMap_cons_none (hclose _))
    · exact .nothing rfl rfl

/-- `STREAM_DATA`. -/
theorem does_data (h : Opened p O k sid pre s) (hne : O ≠ sid) (hk : k < 2 ^ 32) (id data : JsString) :
    Does O k sid s (s.handleData id data) (Pipe.onData O k sid id data) := by
  unfold ControlState.handleData Pipe.onData
  split
  · rename_i T o hentry
    obtain ⟨ho, hid⟩ := ownerEntry?_spec hentry
    have hsid : id ≠ sid := hid ▸ h.notOwner ho
    rw [if_neg hsid]
    rcases hf : decodePublicTunnelFrame (decodeBase64 data) with e | f
    · rw [ite_self]
      exact .nothing rfl rfl
    dsimp only
    by_cases hours : o.streamId = O ∧ o.ownerToServer.get? f.streamId = some sid ∧ sid ≠ []
    · obtain ⟨hO, hslot, hempty⟩ := hours
      have hnumber : f.streamId = k := by
        have hmade := h.routed.made ho hslot
        exact (h.once hmade).2
      rw [if_pos (hid.symm.trans hO), if_pos ⟨hnumber, hempty⟩]
      exact h.does_frame ho hslot hempty
    · have hother : ∀ x, o.ownerToServer.get? f.streamId = some x → x ≠ [] → x ≠ sid := by
        rintro x hx hnonempty rfl
        have hmade := h.routed.made ho hx
        exact hours ⟨(h.once hmade).1, hx, hnonempty⟩
      have hnothing := h.does_otherFrame ho hother
      by_cases hframe : id = O ∧ f.streamId = k ∧ sid ≠ []
      · obtain ⟨hO, hnumber, hempty⟩ := hframe
        rw [if_pos hO, if_pos ⟨hnumber, hempty⟩]
        -- the owner has nothing under the number any more
        have hclosed : s.publicTunnelStreams.has sid = false := by
          rw [Bool.eq_false_iff]
          intro hhas
          have hslot := (h.isOpen_iff ho (hid.trans hO)).mp hhas
          exact hours ⟨hid.trans hO, hnumber ▸ hslot, hempty⟩
        refine .late _ hclosed ?_ ?_
        · rw [hnothing.live, hclosed, Bool.false_and]
        · rw [hnothing.out, ite_self]
      · have hresult : (if id = O then
            (if f.streamId = k ∧ sid ≠ [] then Pipe.ofOwner f else ([], false)) else ([], false)) =
            (([], false) : List Relayed × Bool) := by
          by_cases hO : id = O
          · rw [if_pos hO, if_neg fun hc => hframe ⟨hO, hc⟩]
          · rw [if_neg hO]
        rw [hresult]
        exact hnothing
  · rename_i hnone
    have hO : id = O → s.publicTunnelStreams.has sid = false := fun hO => h.not_open (hO ▸ hnone)
    split
    · rename_i l hl
      obtain ⟨o, ho, hslot, -⟩ := h.routed.link hl
      rw [ho]
      have hidO : id ≠ O := by
        rintro rfl
        have hlink := h.notLinked
        rw [hl] at hlink
        cases hlink
      by_cases hsid : id = sid
      · rw [if_pos hsid]
        rw [hsid] at hl
        obtain ⟨hnumber, o', ho', hO', -⟩ := h.linked hl
        rw [ho] at ho'
        cases ho'
        have hopen : s.publicTunnelStreams.has sid = true := Option.isSome_iff_exists.mpr ⟨l, hl⟩
        refine .now hopen hopen ?_
        show (sendFrame o.streamId .streamData l.ownerStreamId (decodeBase64 data)).filterMap _ = _
        rw [hO', hnumber]
        exact relayed_sendFrame hk hne (by decide)
      · rw [if_neg hsid, if_neg hidO]
        refine .nothing rfl (relayed_sendFrame_other (h.notOwner ho) fun hO' hnumber => ?_)
        rw [hnumber] at hslot
        exact absurd (h.slot ho hO' hslot) hsid
    · rename_i hlink
      have hlate : id = sid → s.publicTunnelStreams.has sid = false := by
        rintro rfl
        exact OrdMap.not_has_iff.mpr hlink
      have hquiet : ∀ {s' : ControlState} {x : ControlEffect},
          s'.publicTunnelStreams = s.publicTunnelStreams → x.relayed? O k sid = none →
          Does O k sid s (s', [x]) (Pipe.onData O k sid id data) := by
        intro s' x hs' hx
        have hout : [x].filterMap (ControlEffect.relayed? O k sid) = [] := List.filterMap_cons_none hx
        unfold Pipe.onData
        by_cases hsid : id = sid
        · exact .late _ (hlate hsid) (by rw [← hlate hsid, ← hs']) hout
        · rw [if_neg hsid]
          by_cases hidO : id = O
          · exact .late _ (hO hidO) (by rw [← hO hidO, ← hs']) hout
          · rw [if_neg hidO]
            exact .nothing (by rw [← hs']) hout
      split
      · exact hquiet rfl rfl
      split
      · exact hquiet rfl rfl
      · exact hquiet rfl rfl

/-- The close of an owner stream. -/
theorem does_closeOwner (h : Opened p O k sid pre s) {T : MapKey} {o : TunnelOwner}
    (ho : s.publicTunnelOwners.get? T = some o) :
    Does O k sid s (s.closeOwner o.streamId T o)
      (if o.streamId = O then ([.closed (js "tunnel owner closed")], true) else ([], false)) := by
  have hmem : sid ∈ o.serverToOwner.keys ↔ o.streamId = O ∧ s.publicTunnelStreams.has sid = true := by
    rw [OrdMap.mem_keys_iff]
    constructor
    · rintro ⟨n, hn⟩
      have hl := h.routed.back ho hn
      obtain ⟨-, o', ho', hO, -⟩ := h.linked hl
      rw [ho] at ho'
      cases ho'
      exact ⟨hO, Option.isSome_iff_exists.mpr ⟨_, hl⟩⟩
    · rintro ⟨hO, hhas⟩
      obtain ⟨l, hl⟩ := Option.isSome_iff_exists.mp hhas
      obtain ⟨-, o', ho', hO', -, hback⟩ := h.linked hl
      have hT := h.routed.ownerInj ho' ho (hO'.trans hO.symm)
      rw [hT, ho] at ho'
      cases ho'
      exact ⟨k, hback⟩
  have hlive : (s.closeOwner o.streamId T o).1.publicTunnelStreams.has sid =
      (s.publicTunnelStreams.has sid && !o.serverToOwner.keys.contains sid) := by
    show (s.publicTunnelStreams.filter fun e => !o.serverToOwner.keys.contains e.1).has sid = _
    rw [Bool.eq_iff_iff, OrdMap.has_filter_iff (q := fun id => !o.serverToOwner.keys.contains id),
      Bool.and_eq_true]
    exact and_comm
  have hout := @relayed_closeAll O sid k _ (OrdMap.nodup_keys o.serverToOwner) (js "tunnel owner closed")
  by_cases hsid : sid ∈ o.serverToOwner.keys
  · obtain ⟨hO, hopen⟩ := hmem.mp hsid
    rw [if_pos hsid] at hout
    rw [if_pos hO]
    refine .now hopen ?_ hout
    rw [hlive, hopen, List.contains_iff_mem.mpr hsid]
    rfl
  · rw [if_neg hsid] at hout
    have hkeep : (s.closeOwner o.streamId T o).1.publicTunnelStreams.has sid = s.publicTunnelStreams.has sid := by
      have hcontains : o.serverToOwner.keys.contains sid = false := by
        rw [Bool.eq_false_iff]
        exact fun hc => hsid (List.contains_iff_mem.mp hc)
      rw [hlive, hcontains, Bool.not_false, Bool.and_true]
    by_cases hO : o.streamId = O
    · have hclosed : s.publicTunnelStreams.has sid = false := by
        rw [Bool.eq_false_iff]
        exact fun hhas => hsid (hmem.mpr ⟨hO, hhas⟩)
      exact .late _ hclosed (hkeep.trans hclosed) hout
    · rw [if_neg hO]
      exact .nothing hkeep hout

/-- `STREAM_CLOSE`. -/
theorem does_close (h : Opened p O k sid pre s) (hne : O ≠ sid) (hk : k < 2 ^ 32) (id : JsString) :
    Does O k sid s (s.handleClose id) (Pipe.onClose O sid id) := by
  unfold ControlState.handleClose Pipe.onClose
  split
  · rename_i T o hentry
    obtain ⟨ho, hid⟩ := ownerEntry?_spec hentry
    have hsid : id ≠ sid := hid ▸ h.notOwner ho
    rw [if_neg hsid, ← hid]
    exact h.does_closeOwner ho
  · rename_i hnone
    have hO : id = O → s.publicTunnelStreams.has sid = false := fun hO => h.not_open (hO ▸ hnone)
    split
    · rename_i l hl
      obtain ⟨o, ho, hslot, -⟩ := h.routed.link hl
      rw [ho]
      have hidO : id ≠ O := by
        rintro rfl
        have hlink := h.notLinked
        rw [hl] at hlink
        cases hlink
      by_cases hsid : id = sid
      · rw [if_pos hsid]
        rw [hsid] at hl
        obtain ⟨hnumber, o', ho', hO', -⟩ := h.linked hl
        rw [ho] at ho'
        cases ho'
        have hopen : s.publicTunnelStreams.has sid = true := Option.isSome_iff_exists.mpr ⟨l, hl⟩
        have henc : encodePublicTunnelFrame .streamReset l.ownerStreamId [] =
            .ok (PublicTunnelFrame.streamReset.code :: beBytes 4 l.ownerStreamId ++ []) :=
          if_pos (hnumber.symm ▸ hk)
        have hsome : (ControlEffect.streamData o.streamId _).relayed? O k sid = _ :=
          relayed?_frame henc (hO'.symm ▸ hne)
        rw [if_pos ⟨hO', hnumber, by decide⟩] at hsome
        dsimp only
        rw [henc]
        refine .now hopen ?_ (List.filterMap_cons_some hsome)
        rw [hsid, has_cleanup, decide_eq_false (not_not.mpr rfl), Bool.and_false]
        rfl
      · rw [if_neg hsid, if_neg hidO]
        have hlive : (s.cleanupPublicTunnelStream id).publicTunnelStreams.has sid =
            s.publicTunnelStreams.has sid := by
          rw [has_cleanup, decide_eq_true (Ne.symm hsid), Bool.and_true]
        dsimp only
        split
        · exact .nothing rfl rfl
        · rename_i frame hframe
          have hout := relayed?_frame (O := O) (k := k) hframe (h.notOwner ho)
          rw [if_neg] at hout
          · exact .nothing hlive (List.filterMap_cons_none hout)
          · rintro ⟨hO', hnumber, -⟩
            rw [hnumber] at hslot
            exact hsid (h.slot ho hO' hslot)
    · rename_i hlink
      have hquiet : ∀ {s' : ControlState} {effects : List ControlEffect},
          s'.publicTunnelStreams = s.publicTunnelStreams →
          effects.filterMap (ControlEffect.relayed? O k sid) = [] →
          Does O k sid s (s', effects) (Pipe.onClose O sid id) := by
        intro s' effects hs' hout
        unfold Pipe.onClose
        by_cases hsid : id = sid
        · have hclosed : s.publicTunnelStreams.has sid = false := by
            rw [← hsid]
            exact OrdMap.not_has_iff.mpr hlink
          exact .late _ hclosed (by rw [← hclosed, ← hs']) hout
        · rw [if_neg hsid]
          by_cases hidO : id = O
          · rw [if_pos hidO]
            exact .late _ (hO hidO) (by rw [← hO hidO, ← hs']) hout
          · rw [if_neg hidO]
            exact .nothing (by rw [← hs']) hout
      split
      · exact hquiet rfl rfl
      · refine hquiet rfl ?_
        split_ifs <;> rfl

/-- **One step** of the handlers is one step of the pipe. -/
theorem relayed_step (h : Opened p O k sid pre s) (hne : O ≠ sid) (hk : k < 2 ^ 32) {e : ControlEvent}
    (hopens : ∀ target, e ≠ .streamOpen sid target)
    (hbelow : ∀ id, ¬ OpensOn p s e O k id) :
    relayed O k sid p s e = Pipe.out O k sid (s.publicTunnelStreams.has sid) e ∧
      (s.step p e).publicTunnelStreams.has sid = Pipe.step O k sid (s.publicTunnelStreams.has sid) e := by
  have of_does : e.isMessage = true → Does O k sid s (s.handle p e) (Pipe.carries O k sid e) →
      relayed O k sid p s e = Pipe.out O k sid (s.publicTunnelStreams.has sid) e ∧
        (s.step p e).publicTunnelStreams.has sid = Pipe.step O k sid (s.publicTunnelStreams.has sid) e := by
    intro hmessage hdoes
    unfold relayed
    rw [if_pos hmessage]
    exact ⟨hdoes.out, hdoes.live⟩
  have quiet : e.isMessage = false → Pipe.carries O k sid e = ([], false) →
      (s.step p e).publicTunnelStreams = s.publicTunnelStreams →
      relayed O k sid p s e = Pipe.out O k sid (s.publicTunnelStreams.has sid) e ∧
        (s.step p e).publicTunnelStreams.has sid = Pipe.step O k sid (s.publicTunnelStreams.has sid) e := by
    intro hmessage hcarries hsame
    unfold relayed Pipe.out Pipe.step
    rw [if_neg (ne_true_of_eq_false hmessage), hcarries, hsame, ite_self, Bool.not_false, Bool.and_true]
    exact ⟨rfl, rfl⟩
  cases e with
  | streamOpen id target =>
    have hid : id ≠ sid := by
      rintro rfl
      exact hopens target rfl
    refine of_does rfl (h.does_open hid target fun {o t init} ht ho hO hnext => ?_)
    exact hbelow id ⟨target, t, init, o, rfl, ht, ho, hO, hnext⟩
  | streamData id data => exact of_does rfl (h.does_data hne hk id data)
  | streamClose id => exact of_does rfl (h.does_close hne hk id)
  | connectionClosed =>
    unfold relayed Pipe.out Pipe.step
    refine ⟨(ite_self _).symm, ?_⟩
    rw [show (Pipe.carries O k sid .connectionClosed).2 = true from rfl, Bool.not_true, Bool.and_false]
    rfl
  | socketClosed id =>
    refine quiet rfl rfl ?_
    show (if s.rawStreams.has id then _ else _ : ControlState × List ControlEffect).1.publicTunnelStreams = _
    split_ifs <;> rfl
  | socketData id data => exact quiet rfl rfl rfl
  | socketError id message => exact quiet rfl rfl rfl
  | dataPlaneDone id => exact quiet rfl rfl rfl
  | executed id output => exact quiet rfl rfl rfl

end Opened

/-! ### Whole runs -/

section Runs

/-- A stream is opened at one place of the run. -/
theorem opening_unique {a a' b b' : List ControlEvent} {id : JsString} {target target' : Option JsString}
    (hn : (openIds (a ++ .streamOpen id target :: b)).Nodup)
    (h : a ++ .streamOpen id target :: b = a' ++ .streamOpen id target' :: b') : a = a' ∧ target = target' := by
  have hids : ∀ x target y, openIds (x ++ .streamOpen id target :: y) = openIds x ++ id :: openIds y := by
    intro x target y
    unfold openIds
    rw [List.filterMap_append]
    rfl
  have twice : ∀ {x y z : List JsString}, ¬ (x ++ id :: (y ++ id :: z)).Nodup := by
    intro x y z hnodup
    have hmid := (List.nodup_append.mp hnodup).2.1
    have hmem : id ∈ y ++ id :: z := by simp
    exact (List.nodup_cons.mp hmid).1 hmem
  rcases List.append_eq_append_iff.mp h with ⟨c, rfl, hc⟩ | ⟨c, rfl, hc⟩
  · rcases List.cons_eq_append_iff.mp hc with ⟨rfl, hcons⟩ | ⟨c', rfl, hb⟩
    · cases hcons
      exact ⟨(List.append_nil a).symm, rfl⟩
    · rw [hids, hb, hids] at hn
      exact absurd hn twice
  · rcases List.cons_eq_append_iff.mp hc with ⟨rfl, hcons⟩ | ⟨c', rfl, -⟩
    · cases hcons
      exact ⟨List.append_nil a', rfl⟩
    · rw [hids, hids, List.append_assoc, List.cons_append] at hn
      exact absurd hn twice

/-- Owners come from owner streams. -/
theorem openedAsOwner_run {pre : List ControlEvent} {T : MapKey} {o : TunnelOwner}
    (h : (run (ControlState.step p) {} pre).publicTunnelOwners.get? T = some o) :
    OpenedAsOwner p pre o.streamId := by
  induction pre using List.reverseRecOn generalizing T o with
  | nil => cases h
  | append_singleton pre e ih =>
    have later : ∀ {id}, OpenedAsOwner p pre id → OpenedAsOwner p (pre ++ [e]) id := fun hid => hid.concat e
    rw [run_concat] at h
    have hstep := reroutes (p := p) (run (ControlState.step p) {} pre) e
    generalize (ControlState.step p (run (ControlState.step p) {} pre) e).publicTunnelOwners = owners' at hstep h
    generalize (ControlState.step p (run (ControlState.step p) {} pre) e).publicTunnelStreams = links' at hstep
    cases hstep with
    | same _ => exact later (ih h)
    | owner id target t he ht =>
      rw [OrdMap.get?_set] at h
      split at h
      · cases h
        rw [he]
        exact .last ht rfl
      · exact later (ih h)
    | stream id target t init o' he ht ho =>
      rw [OrdMap.get?_set] at h
      split at h
      · cases h
        have hold := later (ih ho)
        exact hold
      · exact later (ih h)
    | cleanup he sid l o' hl ho =>
      rw [OrdMap.get?_set] at h
      split at h
      · cases h
        have hold := later (ih ho)
        exact hold
      · exact later (ih h)
    | orphan he sid l hl ho => exact later (ih h)
    | ownerClose he T' o' ho =>
      rw [OrdMap.get?_delete] at h
      split at h
      · cases h
      · exact later (ih h)
    | clear he => cases h

theorem OpenedOn.mono {pre post : List ControlEvent} (h : OpenedOn p pre O k sid) :
    OpenedOn p (pre ++ post) O k sid := by
  obtain ⟨a, e, b, rfl, h⟩ := h
  exact ⟨a, e, b ++ post, by simp, h⟩

theorem OpensOn.inj {s : ControlState} {e : ControlEvent} {O' : JsString} {k' : ℕ} (h : OpensOn p s e O k sid)
    (h' : OpensOn p s e O' k' sid) : O' = O ∧ k' = k := by
  obtain ⟨target, t, init, o, rfl, ht, ho, hO, hk⟩ := h
  obtain ⟨target', t', init', o', heq, ht', ho', hO', hk'⟩ := h'
  cases heq
  rw [ht] at ht'
  cases ht'
  rw [ho] at ho'
  cases ho'
  exact ⟨hO'.symm.trans hO, hk'.symm.trans hk⟩

variable {a b : List ControlEvent} {e : ControlEvent}

/-- In a run in which `sid` is opened, the roles are as they should be at every time. -/
theorem opened_initial (hn : (openIds (a ++ e :: b)).Nodup)
    (hc : Steps (ControlState.step p) (fun _ => OwnersReopenUnlinked p) {} (a ++ e :: b))
    (hopen : OpensOn p (run (ControlState.step p) {} a) e O k sid) {pre post : List ControlEvent}
    (hpre : a ++ e :: b = pre ++ post) : Opened p O k sid pre (run (ControlState.step p) {} pre) := by
  have routed : ∀ {x y : List ControlEvent}, a ++ e :: b = x ++ y →
      Routed p x (run (ControlState.step p) {} x).publicTunnelOwners
        (run (ControlState.step p) {} x).publicTunnelStreams := by
    intro x y hxy
    rw [hxy] at hn hc
    refine routed_run ?_ hc.of_append
    unfold openIds at *
    rw [List.filterMap_append] at hn
    exact (List.nodup_append.mp hn).1
  have whole : OpenedOn p (a ++ e :: b) O k sid := ⟨a, e, b, rfl, hopen⟩
  have extend : ∀ {O' k' id}, OpenedOn p pre O' k' id → OpenedOn p (a ++ e :: b) O' k' id := by
    intro O' k' id h
    rw [hpre]
    exact h.mono
  have within : ∀ {x}, x ∈ pre → x ∈ a ++ e :: b := by
    intro x hx
    rw [hpre]
    exact List.mem_append_left _ hx
  obtain ⟨target, t, init, o, he, ht, ho, hO, -⟩ := id hopen
  have hsid : ControlEvent.streamOpen sid target ∈ a ++ e :: b := by
    rw [he]
    exact List.mem_append_right _ (List.mem_cons_self ..)
  have hall := routed (y := []) (List.append_nil _).symm
  refine { routed := routed hpre, once := fun h => ?_, only := fun h => hall.unique (extend h) whole,
           notOwner := fun h heq => ?_, notLinked := ?_ }
  · obtain ⟨a', e', b', heq, hopen'⟩ := extend h
    obtain ⟨target', he'⟩ := hopen'.isOpen
    rw [he] at hn heq
    rw [he'] at heq
    obtain ⟨rfl, rfl⟩ := opening_unique hn heq
    rw [he'] at hopen'
    rw [he] at hopen
    exact hopen.inj hopen'
  · obtain ⟨target', t', hmem, ht', howner⟩ := (openedAsOwner_run h).target
    rw [heq] at hmem
    rw [open_unique hn (within hmem) hsid, ht] at ht'
    cases ht'
    cases howner
  · rw [Option.eq_none_iff_forall_ne_some]
    intro l hl
    -- then it was opened as a client stream, but also as an owner stream
    obtain ⟨o', ho', hslot, -⟩ := (routed hpre).link hl
    obtain ⟨a', e', b', heq, hopen'⟩ := extend ((routed hpre).made ho' hslot)
    obtain ⟨target', t', init', o'', rfl, ht', -⟩ := hopen'
    obtain ⟨target'', t'', hmem, ht'', howner⟩ := (openedAsOwner_run ho).target
    rw [hO] at hmem
    have hclient : ControlEvent.streamOpen O target' ∈ a ++ e :: b := by
      rw [heq]
      exact List.mem_append_right _ (List.mem_cons_self ..)
    rw [open_unique hn (List.mem_append_left _ hmem) hclient, ht'] at ht''
    cases ht''
    cases howner

/-- A step that is not the opening itself. -/
theorem relayed_between (hn : (openIds (a ++ e :: b)).Nodup)
    (hc : Steps (ControlState.step p) (fun _ => OwnersReopenUnlinked p) {} (a ++ e :: b))
    (hopen : OpensOn p (run (ControlState.step p) {} a) e O k sid) (hne : O ≠ sid) (hk : k < 2 ^ 32)
    {pre post : List ControlEvent} {i : ControlEvent} (hpre : a ++ e :: b = pre ++ i :: post) (hother : pre ≠ a) :
    relayed O k sid p (run (ControlState.step p) {} pre) i =
        Pipe.out O k sid ((run (ControlState.step p) {} pre).publicTunnelStreams.has sid) i ∧
      ((run (ControlState.step p) {} pre).step p i).publicTunnelStreams.has sid =
        Pipe.step O k sid ((run (ControlState.step p) {} pre).publicTunnelStreams.has sid) i := by
  have hopened := opened_initial hn hc hopen hpre
  have hlater : Opened p O k sid (pre ++ [i]) (run (ControlState.step p) {} (pre ++ [i])) := by
    have hsplit : a ++ e :: b = (pre ++ [i]) ++ post := by
      rw [hpre, List.append_assoc]
      rfl
    exact opened_initial hn hc hopen hsplit
  have hopens : ∀ target, i ≠ .streamOpen sid target := by
    rintro target rfl
    obtain ⟨target', he⟩ := hopen.isOpen
    rw [he] at hn hpre
    exact hother (opening_unique hn hpre).1.symm
  refine hopened.relayed_step hne hk hopens fun id hid => ?_
  obtain rfl := hlater.only (openedOn_concat.mpr (.inr hid))
  obtain ⟨target, hi⟩ := hid.isOpen
  exact hopens target hi

variable (p) in
/-- The bytes that come with a stream that is opened. -/
def initialData (e : ControlEvent) : Bytes :=
  match e with
  | .streamOpen _ target =>
    match parseStreamTarget p target with
    | some (.publicTunnelStream _ init) => init
    | _ => []
  | _ => []

/-- The opening itself. -/
theorem relayed_opening {s : ControlState} (hopen : OpensOn p s e O k sid) (hne : O ≠ sid) (hk : k < 2 ^ 32) :
    relayed O k sid p s e = [.toOwner PublicTunnelFrame.streamOpen.code (initialData p e)] ∧
      (s.step p e).publicTunnelStreams.has sid = true := by
  obtain ⟨target, t, init, o, rfl, ht, ho, hO, hnumber⟩ := hopen
  have hproxy : target ≠ some (js "proxy-session") := by
    rintro rfl
    rw [parse_proxySession] at ht
    cases ht
  have hinit : initialData p (.streamOpen sid target) = init := by
    unfold initialData
    dsimp only
    rw [ht]
  have hhandle : s.handle p (.streamOpen sid target) =
      ({ s with opens := s.opens + 1 } : ControlState).openPublicStream sid (mapKey s.opens t) init := by
    show s.handleOpen p sid target = _
    unfold ControlState.handleOpen
    dsimp only
    rw [if_neg hproxy, ht]
  have hresult : (s.handle p (.streamOpen sid target)).2 = sendFrame O .streamOpen k init ∧
      (s.handle p (.streamOpen sid target)).1.publicTunnelStreams =
        s.publicTunnelStreams.set sid ⟨mapKey s.opens t, k⟩ := by
    rw [hhandle]
    unfold ControlState.openPublicStream
    dsimp only
    rw [ho, ← hO, ← hnumber]
    exact ⟨rfl, rfl⟩
  constructor
  · have hmessage : (ControlEvent.streamOpen sid target).isMessage = true := rfl
    unfold relayed
    rw [if_pos hmessage, hresult.1, hinit]
    exact relayed_sendFrame hk hne (by decide)
  · unfold ControlState.step
    rw [hresult.2]
    unfold OrdMap.has
    rw [OrdMap.get?_set_self]
    rfl

/-- **The relay is exact.** In a run in which no stream id is opened twice and no owner stream takes over a tunnel
with linked streams, let `sid` be opened as number `k` of the owner stream `O`. What the owner gets in frames with
this number, and what the client gets, is nothing before that, then the opening frame with the initial data, then
what the pipe gives them: data, and at most one end. -/
theorem relay_exact (hn : (openIds (a ++ e :: b)).Nodup)
    (hc : Steps (ControlState.step p) (fun _ => OwnersReopenUnlinked p) {} (a ++ e :: b))
    (hopen : OpensOn p (run (ControlState.step p) {} a) e O k sid) (hk : k < 2 ^ 32) :
    trace (ControlState.step p) (relayed O k sid p) {} (a ++ e :: b) =
        .toOwner PublicTunnelFrame.streamOpen.code (initialData p e) ::
          trace (Pipe.step O k sid) (Pipe.out O k sid) true b ∧
      ∃ body last, trace (Pipe.step O k sid) (Pipe.out O k sid) true b = body ++ last ∧
        (∀ x ∈ body, x.isData = true) ∧ last.length ≤ 1 ∧ ∀ x ∈ last, x.isEnd = true := by
  have hne : O ≠ sid := by
    obtain ⟨target, t, init, o, -, -, ho, hO, -⟩ := id hopen
    rw [← hO]
    have hopened : Opened p O k sid a (run (ControlState.step p) {} a) := opened_initial hn hc hopen rfl
    exact hopened.notOwner ho
  have hbefore : trace (ControlState.step p) (relayed O k sid p) {} a = [] := by
    refine trace_eq_nil fun pre i post heq => ?_
    have hpre : a ++ e :: b = pre ++ i :: (post ++ e :: b) := by
      rw [heq, List.append_assoc, List.cons_append]
    have hnot : pre ≠ a := by
      intro h
      have hlength := congrArg List.length heq
      rw [h, List.length_append, List.length_cons] at hlength
      omega
    show relayed O k sid p (run (ControlState.step p) {} pre) i = []
    rw [(relayed_between hn hc hopen hne hk hpre hnot).1]
    have hclosed : (run (ControlState.step p) {} pre).publicTunnelStreams.has sid = false := by
      rw [Bool.eq_false_iff]
      intro hhas
      obtain ⟨l, hl⟩ := Option.isSome_iff_exists.mp hhas
      have hid := (opened_initial hn hc hopen hpre).routed.linkIds hl
      obtain ⟨target, he⟩ := hopen.isOpen
      unfold openIds at hn hid
      rw [heq, he, List.filterMap_append, List.filterMap_append] at hn
      exact (List.nodup_append.mp hn).2.2 sid (List.mem_append_left _ hid) sid (List.mem_cons_self ..) rfl
    rw [hclosed]
    rfl
  have hopening := relayed_opening hopen hne hk
  have hafter : trace (ControlState.step p) (relayed O k sid p) (run (ControlState.step p) {} (a ++ [e])) b =
      trace (Pipe.step O k sid) (Pipe.out O k sid) true b := by
    have hsteps : Steps (ControlState.step p) (fun _ s i =>
        relayed O k sid p s i = Pipe.out O k sid (s.publicTunnelStreams.has sid) i ∧
          (s.step p i).publicTunnelStreams.has sid = Pipe.step O k sid (s.publicTunnelStreams.has sid) i)
        (run (ControlState.step p) {} (a ++ [e])) b := by
      intro pre i post heq
      show relayed O k sid p (run (ControlState.step p) (run (ControlState.step p) {} (a ++ [e])) pre) i = _ ∧ _
      rw [← run_append]
      have hnot : a ++ [e] ++ pre ≠ a := by
        intro h
        have hlength := congrArg List.length h
        rw [List.length_append, List.length_append, List.length_singleton] at hlength
        omega
      have hsplit : a ++ e :: b = (a ++ [e] ++ pre) ++ i :: post := by
        rw [heq, List.append_assoc, List.append_assoc]
        rfl
      exact relayed_between hn hc hopen hne hk hsplit hnot
    have hstart : true = (run (ControlState.step p) {} (a ++ [e])).publicTunnelStreams.has sid := by
      rw [run_concat]
      exact hopening.2.symm
    refine trace_simulates (R := fun s live => live = s.publicTunnelStreams.has sid) ?_ hstart hsteps
    rintro - s live i rfl ⟨hout, hlive⟩
    exact ⟨hout, hlive.symm⟩
  refine ⟨?_, Pipe.session O k sid b⟩
  rw [trace_append, hbefore, List.nil_append]
  show relayed O k sid p _ e ++ trace _ _ _ b = _
  rw [hopening.1, ← run_concat (ControlState.step p), hafter]
  rfl

end Runs

/-! ### A run -/

namespace Sample

/-- The owner and a first client. -/
def before : List ControlEvent :=
  [.streamOpen (js "o1") ownerTarget, .streamOpen (js "s1") streamTarget]

/-- Two clients talk at the same time; the second one leaves while the owner still sends. -/
def after : List ControlEvent :=
  [.streamData (js "s2") (base64 [72, 105]), .streamData (js "s1") (base64 [1]),
    .streamData (js "o1") (base64 [2, 0, 0, 0, 1, 7]), .streamData (js "o1") (base64 [2, 0, 0, 0, 2, 79, 75]),
    .streamClose (js "s2"), .streamData (js "o1") (base64 [2, 0, 0, 0, 2, 33])]

theorem second_client_relayed :
    trace (ControlState.step platform) (relayed (js "o1") 2 (js "s2") platform) {}
        (before ++ .streamOpen (js "s2") streamTarget :: after) =
      [.toOwner 1 [], .toOwner 2 [72, 105], .toClient [79, 75], .toOwner 4 []] := by
  have hopen : OpensOn platform (run (ControlState.step platform) {} before)
      (.streamOpen (js "s2") streamTarget) (js "o1") 2 (js "s2") := by
    have howner : ((run (ControlState.step platform) {} before).publicTunnelOwners.get?
        (.value (.str (js "t")))).map (fun o => (o.streamId, o.nextStreamId)) = some (js "o1", 2) := by
      decide +kernel
    obtain ⟨o, ho, heq⟩ := Option.map_eq_some_iff.mp howner
    exact ⟨streamTarget, .str (js "t"), [], o, rfl, by decide +kernel, ho, congrArg Prod.fst heq,
      congrArg Prod.snd heq⟩
  have hexact := relay_exact (p := platform) (b := after) (by decide +kernel) (by decide +kernel) hopen (by decide)
  exact hexact.1.trans (by decide +kernel)

end Sample

end ConsensusNode.Clients
