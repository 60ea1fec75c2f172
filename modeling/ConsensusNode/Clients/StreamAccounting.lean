import ConsensusNode.Clients.TunnelIsolation
import ConsensusNode.Clients.StreamData

/-! # The accounts of the streams

What the two sides of the control tunnel know of its streams, and what the client keeps.

* `Ledger`: the streams that were accepted and that neither side has closed, and the raw sockets that are
  neither destroyed nor closed, both read off the messages and the calls alone.
* `Removes`: what a step that opens nothing does to the collections.
* `Books`: the collections agree with the ledger, every stream is in the map that its target names, and what
  the owners of the tunnels refer to is linked.
* `accounted_iff`: in an orderly run the collections agree with the ledger after every event if and only if every
  open gets what its target needs: a raw tunnel a socket, a stream of a public tunnel a number of 32 bits.

An open makes its stream active first. Where `net.createConnection` or the encoder of the frame throws after that,
the other side gets an error message, and the stream stays active. -/

namespace ConsensusNode.Clients

open Js Lib.Run

/-! ### What the two sides know -/

/-- `sendStreamClose(id, …)`. -/
def ControlEffect.closes (id : JsString) : ControlEffect → Bool
  | .streamClose id' _ => decide (id' = id)
  | _ => false

/-- The answers to a `STREAM_OPEN` that is not accepted; an exception of the handler is answered with an error
message. -/
def ControlEffect.refuses (id : JsString) : ControlEffect → Bool
  | .streamClose id' _ => decide (id' = id)
  | .error _ _ => true
  | .threw _ => true
  | _ => false

def ControlEffect.connects (id : JsString) : ControlEffect → Bool
  | .connect id' _ _ => decide (id' = id)
  | _ => false

def ControlEffect.destroys (id : JsString) : ControlEffect → Bool
  | .socketDestroy id' => decide (id' = id)
  | _ => false

/-- A socket that has failed is destroyed by itself. -/
def ControlEvent.endsSocket (id : JsString) : ControlEvent → Bool
  | .socketClosed id' => decide (id' = id)
  | .socketError id' _ => decide (id' = id)
  | _ => false

/-- The stream that a message opens. -/
def ControlEvent.opened : ControlEvent → Finset JsString
  | .streamOpen id _ => {id}
  | _ => ∅

/-- The stream is closed: by a message, by the end of its session, with the tunnel, or by the client. -/
def ClosedBy (e : ControlEvent) (effects : List ControlEffect) (id : JsString) : Prop :=
  e = .streamClose id ∨ e = .dataPlaneDone id ∨ e = .connectionClosed ∨ ∃ x ∈ effects, x.closes id = true

instance (e : ControlEvent) (effects : List ControlEffect) (id : JsString) :
    Decidable (ClosedBy e effects id) := by
  unfold ClosedBy
  infer_instance

/-- The socket of the stream is destroyed or has closed. -/
def SocketEnds (e : ControlEvent) (effects : List ControlEffect) (id : JsString) : Prop :=
  e.endsSocket id = true ∨ ∃ x ∈ effects, x.destroys id = true

instance (e : ControlEvent) (effects : List ControlEffect) (id : JsString) :
    Decidable (SocketEnds e effects id) := by
  unfold SocketEnds
  infer_instance

structure Ledger where
  /-- Accepted, and closed by neither side. -/
  streams : Finset JsString := ∅
  /-- Connected, and neither destroyed nor closed. -/
  sockets : Finset JsString := ∅
deriving DecidableEq

/-- The streams that an event opens and its effects do not refuse. -/
def accepted (e : ControlEvent) (effects : List ControlEffect) : Finset JsString :=
  e.opened.filter fun id => ∀ x ∈ effects, x.refuses id = false

/-- The streams that an event opens and its effects connect to a target. -/
def connected (e : ControlEvent) (effects : List ControlEffect) : Finset JsString :=
  e.opened.filter fun id => ∃ x ∈ effects, x.connects id = true

def Ledger.note (l : Ledger) (e : ControlEvent) (effects : List ControlEffect) : Ledger where
  streams := (l.streams ∪ accepted e effects).filter fun id => ¬ ClosedBy e effects id
  sockets := (l.sockets ∪ connected e effects).filter fun id => ¬ SocketEnds e effects id

variable (p : Platform)

/-- A step of the client with the entry in the ledger. -/
def auditStep (st : ControlState × Ledger) (e : ControlEvent) : ControlState × Ledger :=
  (st.1.step p e, st.2.note e (st.1.handle p e).2)

/-- What a target asks for. -/
inductive StreamKind where
  | rawTunnel
  | publicTunnelOwner
  | publicTunnelStream
  | dataPlane
deriving DecidableEq

def StreamTarget.kind : StreamTarget → StreamKind
  | rawTunnel _ _ => .rawTunnel
  | publicTunnelOwner _ => .publicTunnelOwner
  | publicTunnelStream _ _ => .publicTunnelStream
  | dataPlane => .dataPlane

/-- The stream is in the map of this kind. -/
def ControlState.keeps (s : ControlState) (id : JsString) : StreamKind → Bool
  | .rawTunnel => s.rawStreams.has id
  | .publicTunnelOwner => (s.ownerEntry? id).isSome
  | .publicTunnelStream => s.publicTunnelStreams.has id
  | .dataPlane => s.dataPlaneStreams.has id

/-- **The accounts are right** after the events `pre`. -/
structure Accounted (pre : List ControlEvent) (s : ControlState) (l : Ledger) : Prop where
  exact : ∀ id, s.activeStreams.has id = true ↔ id ∈ l.streams
  /-- A stream is in one of the maps at most. -/
  apart : ∀ id k k', s.keeps id k = true → s.keeps id k' = true → k = k'
  active : ∀ id k, s.keeps id k = true → s.activeStreams.has id = true
  closed : .connectionClosed ∈ pre → s.activeStreams = ∅ ∧ s.rawStreams = ∅ ∧ s.dataPlaneStreams = ∅ ∧
    s.publicTunnelStreams = ∅ ∧ s.publicTunnelOwners = ∅ ∧ l.sockets = ∅

/-! ### Runs -/

/-- The event opens the stream with a target of this kind. -/
def ControlEvent.opensAs (id : JsString) (k : StreamKind) : ControlEvent → Bool
  | .streamOpen id' target =>
    decide (id' = id) && decide ((parseStreamTarget p target).map StreamTarget.kind = some k)
  | _ => false

def OpenedAs (pre : List ControlEvent) (id : JsString) (k : StreamKind) : Prop :=
  ∃ e ∈ pre, e.opensAs p id k = true

def ControlEvent.isMessage : ControlEvent → Bool
  | .streamOpen _ _ => true
  | .streamData _ _ => true
  | .streamClose _ => true
  | _ => false

/-- The stream of an event of a socket. -/
def ControlEvent.socket? : ControlEvent → Option JsString
  | .socketData id _ => some id
  | .socketClosed id => some id
  | .socketError id _ => some id
  | _ => none

/-- The stream whose session has ended. -/
def ControlEvent.session? : ControlEvent → Option JsString
  | .dataPlaneDone id => some id
  | _ => none

/-- What the tunnel, the sockets and the sessions keep to: no stream id is opened twice, a tunnel that is
closed delivers no message, and only a socket or session that was started has events. -/
structure Orderly (pre : List ControlEvent) (e : ControlEvent) : Prop where
  opensOnce : ∀ id ∈ e.opened, id ∉ openIds pre
  delivered : e.isMessage = true → .connectionClosed ∉ pre
  connected : ∀ id ∈ e.socket?, OpenedAs p pre id .rawTunnel
  started : ∀ id ∈ e.session?, OpenedAs p pre id .dataPlane

instance (pre : List ControlEvent) (e : ControlEvent) : Decidable (Orderly p pre e) :=
  decidable_of_iff ((∀ id ∈ e.opened, id ∉ openIds pre) ∧ (e.isMessage = true → .connectionClosed ∉ pre) ∧
      (∀ id ∈ e.socket?, ∃ x ∈ pre, x.opensAs p id .rawTunnel = true) ∧
      ∀ id ∈ e.session?, ∃ x ∈ pre, x.opensAs p id .dataPlane = true)
    ⟨fun h => ⟨h.1, h.2.1, h.2.2.1, h.2.2.2⟩, fun h => ⟨h.1, h.2, h.3, h.4⟩⟩

/-- What an open with this target needs: a socket, or a number of 32 bits. -/
def StreamTarget.Completes (s : ControlState) : StreamTarget → Prop
  | rawTunnel host port => (p.createConnection host port).isOk = true
  | publicTunnelStream tunnelId _ =>
    ∀ o ∈ s.publicTunnelOwners.get? (mapKey s.opens tunnelId), o.nextStreamId < 2 ^ 32
  | _ => True

instance (s : ControlState) (t : StreamTarget) : Decidable (t.Completes p s) := by
  cases t <;> unfold StreamTarget.Completes <;> infer_instance

/-- **The condition.** An open gets what its target needs. -/
def OpenCompletes (s : ControlState) : ControlEvent → Prop
  | .streamOpen _ target => ∀ t ∈ parseStreamTarget p target, t.Completes p s
  | _ => True

instance (s : ControlState) (e : ControlEvent) : Decidable (OpenCompletes p s e) := by
  cases e <;> unfold OpenCompletes <;> infer_instance

/-- What the owners refer to is linked to them. -/
structure RoutesLinked (owners : OrdMap MapKey TunnelOwner) (links : OrdMap JsString TunnelLink) :
    Prop where
  slot : ∀ {T o k id}, owners.get? T = some o → o.ownerToServer.get? k = some id →
    links.get? id = some ⟨T, k⟩
  back : ∀ {T o k id}, owners.get? T = some o → o.serverToOwner.get? id = some k →
    links.get? id = some ⟨T, k⟩
  owners : ∀ {T T' o o'}, owners.get? T = some o → owners.get? T' = some o' → o.streamId = o'.streamId →
    T = T'

/-- The number of every linked stream can be written in a frame. -/
def NumbersEncode (links : OrdMap JsString TunnelLink) : Prop :=
  ∀ id link, links.get? id = some link → link.ownerStreamId < 2 ^ 32

/-- **The invariant.** Every stream that is kept is active and was opened for the map that it is in, an owner
refers to streams that are linked to it, and linked streams have numbers that can be written. -/
structure Books (pre : List ControlEvent) (s : ControlState) (l : Ledger) : Prop where
  once : (openIds pre).Nodup
  exact : ∀ id, s.activeStreams.has id = true ↔ id ∈ l.streams
  sockets : ∀ id, s.rawStreams.has id = true ↔ id ∈ l.sockets
  opened : ∀ id, s.activeStreams.has id = true → id ∈ openIds pre
  kept : ∀ id k, s.keeps id k = true →
    s.activeStreams.has id = true ∧ OpenedAs p pre id k
  routes : RoutesLinked s.publicTunnelOwners s.publicTunnelStreams
  numbers : NumbersEncode s.publicTunnelStreams
  closed : .connectionClosed ∈ pre → s.activeStreams = ∅ ∧ s.rawStreams = ∅ ∧ s.dataPlaneStreams = ∅ ∧
    s.publicTunnelStreams = ∅ ∧ s.publicTunnelOwners = ∅

variable {p} {pre : List ControlEvent} {s : ControlState} {l : Ledger} {e : ControlEvent}

theorem ownerEntry?_isSome {id : JsString} :
    (s.ownerEntry? id).isSome = true ↔ ∃ T o, s.publicTunnelOwners.get? T = some o ∧ o.streamId = id := by
  constructor
  · intro h
    obtain ⟨⟨T, o⟩, hentry⟩ := Option.isSome_iff_exists.mp h
    exact ⟨T, o, ownerEntry?_spec hentry⟩
  · rintro ⟨T, o, ho, hid⟩
    have hmem : (T, o) ∈ s.publicTunnelOwners.entries := OrdMap.get?_eq_some.mp ho
    unfold ControlState.ownerEntry?
    rw [List.find?_isSome]
    exact ⟨_, hmem, by simpa using hid⟩

/-! ### The opens -/

theorem mem_openIds {id : JsString} : id ∈ openIds pre ↔ ∃ target, .streamOpen id target ∈ pre := by
  unfold openIds
  rw [List.mem_filterMap]
  constructor
  · rintro ⟨e, he, hid⟩
    split at hid
    · cases hid
      exact ⟨_, he⟩
    · cases hid
  · rintro ⟨target, h⟩
    exact ⟨_, h, rfl⟩

theorem OpenedAs.later {id : JsString} {k : StreamKind} (h : OpenedAs p pre id k) (e : ControlEvent) :
    OpenedAs p (pre ++ [e]) id k := by
  obtain ⟨x, hm, hx⟩ := h
  exact ⟨x, List.mem_append_left _ hm, hx⟩

theorem opensAs_iff {id : JsString} {k : StreamKind} : e.opensAs p id k = true ↔ ∃ target,
    e = .streamOpen id target ∧ (parseStreamTarget p target).map StreamTarget.kind = some k := by
  constructor
  · intro h
    cases e with
    | streamOpen id' target =>
      obtain ⟨hid, hk⟩ := Bool.and_eq_true_iff.mp h
      have hid' : id' = id := of_decide_eq_true hid
      exact ⟨target, by rw [hid'], of_decide_eq_true hk⟩
    | _ => cases h
  · rintro ⟨target, rfl, hk⟩
    exact Bool.and_eq_true_iff.mpr ⟨decide_eq_true rfl, decide_eq_true hk⟩

/-- A stream that is opened once has one target. -/
theorem open_unique {id : JsString} {t t' : Option JsString} (hd : (openIds pre).Nodup)
    (h : ControlEvent.streamOpen id t ∈ pre) (h' : ControlEvent.streamOpen id t' ∈ pre) : t = t' := by
  induction pre with
  | nil => simp at h
  | cons e pre ih =>
    have hrest : (openIds pre).Nodup := by
      cases e <;> first | exact hd | exact (List.nodup_cons.mp hd).2
    have hfirst : ∀ {t t'}, e = .streamOpen id t → ControlEvent.streamOpen id t' ∉ pre := by
      rintro t t' rfl hm
      exact (List.nodup_cons.mp hd).1 (mem_openIds.mpr ⟨t', hm⟩)
    rcases List.mem_cons.mp h with he | h
    · rcases List.mem_cons.mp h' with he' | h'
      · rw [← he'] at he
        cases he
        rfl
      · exact absurd h' (hfirst he.symm)
    · rcases List.mem_cons.mp h' with he' | h'
      · exact absurd h (hfirst he'.symm)
      · exact ih hrest h h'

theorem OpenedAs.unique {id : JsString} {k k' : StreamKind} (hd : (openIds pre).Nodup)
    (h : OpenedAs p pre id k) (h' : OpenedAs p pre id k') : k = k' := by
  obtain ⟨x, hm, hx⟩ := h
  obtain ⟨x', hm', hx'⟩ := h'
  obtain ⟨target, rfl, hk⟩ := opensAs_iff.mp hx
  obtain ⟨target', rfl, hk'⟩ := opensAs_iff.mp hx'
  rw [open_unique hd hm hm', hk'] at hk
  exact (Option.some.inj hk).symm

namespace Books

theorem apart (h : Books p pre s l) {id : JsString} {k k' : StreamKind} (hk : s.keeps id k = true)
    (hk' : s.keeps id k' = true) : k = k' := by
  exact (h.kept id k hk).2.unique h.once (h.kept id k' hk').2

/-- **The invariant gives right accounts.** -/
theorem accounted (h : Books p pre s l) : Accounted pre s l where
  exact := h.exact
  apart := fun _ _ _ hk hk' => h.apart hk hk'
  active := fun id k hk => (h.kept id k hk).1
  closed := by
    intro hc
    obtain ⟨hactive, hraw, hdata, hlinks, howners⟩ := h.closed hc
    refine ⟨hactive, hraw, hdata, hlinks, howners, ?_⟩
    refine Finset.eq_empty_of_forall_notMem fun id hid => ?_
    have hsocket := (h.sockets id).mpr hid
    rw [hraw] at hsocket
    cases hsocket

end Books

/-! ### The routes -/

namespace RoutesLinked

variable {owners : OrdMap MapKey TunnelOwner} {links : OrdMap JsString TunnelLink}

/-- An owner that is changed keeps its stream. -/
theorem owners_set (h : RoutesLinked owners links) {T : MapKey} {o o' : TunnelOwner} (ho : owners.get? T = some o)
    (heq : o'.streamId = o.streamId) {T₁ T₂ : MapKey} {o₁ o₂ : TunnelOwner}
    (h₁ : (owners.set T o').get? T₁ = some o₁) (h₂ : (owners.set T o').get? T₂ = some o₂)
    (hid : o₁.streamId = o₂.streamId) : T₁ = T₂ := by
  have old : ∀ {T' o''}, (owners.set T o').get? T' = some o'' →
      ∃ q, owners.get? T' = some q ∧ q.streamId = o''.streamId := by
    intro T' o'' h'
    rw [OrdMap.get?_set] at h'
    split at h'
    · rename_i hT
      cases h'
      exact ⟨o, hT ▸ ho, heq.symm⟩
    · exact ⟨o'', h', rfl⟩
  obtain ⟨q₁, hq₁, hs₁⟩ := old h₁
  obtain ⟨q₂, hq₂, hs₂⟩ := old h₂
  exact h.owners hq₁ hq₂ (by rw [hs₁, hs₂, hid])

/-- A new owner refers to nothing. -/
theorem owner (h : RoutesLinked owners links) {T : MapKey} {id : JsString}
    (hfree : ∀ {T o}, owners.get? T = some o → o.streamId ≠ id) :
    RoutesLinked (owners.set T { streamId := id }) links where
  slot := by
    intro T' o k x ho hs
    rw [OrdMap.get?_set] at ho
    split at ho
    · cases ho
      cases hs
    · exact h.slot ho hs
  back := by
    intro T' o k x ho hs
    rw [OrdMap.get?_set] at ho
    split at ho
    · cases ho
      cases hs
    · exact h.back ho hs
  owners := by
    intro T₁ T₂ o₁ o₂ ho₁ ho₂ heq
    rw [OrdMap.get?_set] at ho₁ ho₂
    split at ho₁
    · split at ho₂
      · rename_i h₁ h₂
        exact h₁.trans h₂.symm
      · cases ho₁
        exact absurd heq.symm (hfree ho₂)
    · split at ho₂
      · cases ho₂
        exact absurd heq (hfree ho₁)
      · exact h.owners ho₁ ho₂ heq

/-- A new stream is linked under the next number of its owner. -/
theorem link (h : RoutesLinked owners links) {T : MapKey} {o : TunnelOwner} {id : JsString}
    (hfree : links.get? id = none) (ho : owners.get? T = some o) :
    RoutesLinked (owners.set T (o.link id)) (links.set id ⟨T, o.nextStreamId⟩) := by
  have keep : ∀ {x l}, links.get? x = some l → (links.set id ⟨T, o.nextStreamId⟩).get? x = some l := by
    intro x l hx
    rw [OrdMap.get?_set_ne _ _ (by rintro rfl; rw [hfree] at hx; cases hx)]
    exact hx
  constructor
  · intro T' o' k x ho' hs
    rw [OrdMap.get?_set] at ho'
    split at ho'
    · rename_i hT
      cases ho'
      change (o.ownerToServer.set o.nextStreamId id).get? k = some x at hs
      rw [OrdMap.get?_set] at hs
      split at hs
      · rename_i hk
        cases hs
        rw [OrdMap.get?_set_self, hT, hk]
      · exact keep (hT ▸ h.slot ho hs)
    · exact keep (h.slot ho' hs)
  · intro T' o' k x ho' hs
    rw [OrdMap.get?_set] at ho'
    split at ho'
    · rename_i hT
      cases ho'
      change (o.serverToOwner.set id o.nextStreamId).get? x = some k at hs
      rw [OrdMap.get?_set] at hs
      split at hs
      · rename_i hx
        cases hs
        rw [hx, OrdMap.get?_set_self, hT]
      · exact keep (hT ▸ h.back ho hs)
    · exact keep (h.back ho' hs)
  · have hid : (o.link id).streamId = o.streamId := rfl
    intro T₁ T₂ o₁ o₂ h₁ h₂
    exact h.owners_set ho hid h₁ h₂

/-- What belongs to another tunnel stays linked when the link of `sid` goes. -/
theorem get?_delete_other {sid x : JsString} {l : TunnelLink} {T : MapKey} {k : ℕ}
    (hl : links.get? sid = some l) (hT : T ≠ l.tunnelId) (hx : links.get? x = some ⟨T, k⟩) :
    (links.delete sid).get? x = some ⟨T, k⟩ := by
  rw [OrdMap.get?_delete_ne, hx]
  rintro rfl
  rw [hl] at hx
  exact hT (congrArg TunnelLink.tunnelId (Option.some.inj hx)).symm

/-- What is unlinked is forgotten by its owner. -/
theorem unlink (h : RoutesLinked owners links) {sid : JsString} {l : TunnelLink} {o : TunnelOwner}
    (hl : links.get? sid = some l) (ho : owners.get? l.tunnelId = some o) :
    RoutesLinked (owners.set l.tunnelId (o.unlink l.ownerStreamId sid)) (links.delete sid) := by
  constructor
  · intro T o' k x ho' hs
    rw [OrdMap.get?_set] at ho'
    split at ho'
    · rename_i hT
      cases ho'
      change (o.ownerToServer.delete l.ownerStreamId).get? k = some x at hs
      rw [OrdMap.get?_delete] at hs
      split at hs
      · cases hs
      · rename_i hk
        have hx := h.slot ho hs
        rw [OrdMap.get?_delete_ne, hx, hT]
        rintro rfl
        rw [hl] at hx
        exact hk (congrArg TunnelLink.ownerStreamId (Option.some.inj hx)).symm
    · rename_i hT
      exact get?_delete_other hl hT (h.slot ho' hs)
  · intro T o' k x ho' hs
    rw [OrdMap.get?_set] at ho'
    split at ho'
    · rename_i hT
      cases ho'
      change (o.serverToOwner.delete sid).get? x = some k at hs
      rw [OrdMap.get?_delete] at hs
      split at hs
      · cases hs
      · rename_i hx
        rw [OrdMap.get?_delete_ne _ hx, h.back ho hs, hT]
    · rename_i hT
      exact get?_delete_other hl hT (h.back ho' hs)
  · have hid : (o.unlink l.ownerStreamId sid).streamId = o.streamId := rfl
    intro T₁ T₂ o₁ o₂ h₁ h₂
    exact h.owners_set ho hid h₁ h₂

/-- A link without an owner goes. -/
theorem orphan (h : RoutesLinked owners links) {sid : JsString} {l : TunnelLink} (hl : links.get? sid = some l)
    (ho : owners.get? l.tunnelId = none) : RoutesLinked owners (links.delete sid) := by
  have hother : ∀ {T o}, owners.get? T = some o → T ≠ l.tunnelId := by
    rintro T o hT rfl
    rw [ho] at hT
    cases hT
  exact ⟨fun hT hs => get?_delete_other hl (hother hT) (h.slot hT hs),
    fun hT hs => get?_delete_other hl (hother hT) (h.back hT hs), h.owners⟩

/-- An owner goes with the streams that it refers to. -/
theorem ownerClose (h : RoutesLinked owners links) {T : MapKey} {o : TunnelOwner} (ho : owners.get? T = some o) :
    RoutesLinked (owners.delete T) (links.filter fun x => !o.serverToOwner.keys.contains x.1) := by
  have keep : ∀ {T' k x}, T' ≠ T → links.get? x = some ⟨T', k⟩ →
      (links.filter fun x => !o.serverToOwner.keys.contains x.1).get? x = some ⟨T', k⟩ := by
    intro T' k x hT hx
    rw [OrdMap.get?_filter_eq_some]
    refine ⟨hx, ?_⟩
    rw [Bool.not_eq_true', Bool.eq_false_iff]
    intro hc
    obtain ⟨k', hk'⟩ := OrdMap.mem_keys_iff.mp (List.contains_iff_mem.mp hc)
    have hx' := h.back ho hk'
    rw [hx] at hx'
    exact hT (congrArg TunnelLink.tunnelId (Option.some.inj hx'))
  constructor
  · intro T' o' k x ho' hs
    rw [OrdMap.get?_delete] at ho'
    split at ho'
    · cases ho'
    · rename_i hT
      exact keep hT (h.slot ho' hs)
  · intro T' o' k x ho' hs
    rw [OrdMap.get?_delete] at ho'
    split at ho'
    · cases ho'
    · rename_i hT
      exact keep hT (h.back ho' hs)
  · intro T₁ T₂ o₁ o₂ h₁ h₂ heq
    rw [OrdMap.get?_delete] at h₁ h₂
    split at h₁
    · cases h₁
    · split at h₂
      · cases h₂
      · exact h.owners h₁ h₂ heq

/-- **No step breaks a route.** -/
theorem step (h : RoutesLinked s.publicTunnelOwners s.publicTunnelStreams)
    (hnew : ∀ id ∈ e.opened, s.publicTunnelStreams.get? id = none)
    (hnewOwner : ∀ id ∈ e.opened, (s.ownerEntry? id).isSome = false) (hr : Reroutes p s e owners links) :
    RoutesLinked owners links := by
  cases hr with
  | same => exact h
  | owner id target t he ht =>
    refine h.owner fun {T o} ho hid => ?_
    have hnone := hnewOwner id (by rw [he]; exact Finset.mem_singleton_self id)
    rw [ownerEntry?_isSome.mpr ⟨T, o, ho, hid⟩] at hnone
    cases hnone
  | stream id target t init o he ht ho => exact h.link (hnew id (by rw [he]; exact Finset.mem_singleton_self id)) ho
  | cleanup he sid l o hl ho => exact h.unlink hl ho
  | orphan he sid l hl ho => exact h.orphan hl ho
  | ownerClose he T o ho => exact h.ownerClose ho
  | clear he => exact ⟨fun ho => (by cases ho), fun ho => (by cases ho), fun ho => (by cases ho)⟩

end RoutesLinked

/-- A stream that is linked in the step has the next number of its owner. -/
theorem NumbersEncode.step {owners : OrdMap MapKey TunnelOwner} {links : OrdMap JsString TunnelLink}
    (h : NumbersEncode s.publicTunnelStreams) (hc : OpenCompletes p s e) (hr : Reroutes p s e owners links) :
    NumbersEncode links := by
  intro id link hlink
  cases hr with
  | same => exact h id link hlink
  | owner => exact h id link hlink
  | stream sid target t init o he ht ho =>
    rw [OrdMap.get?_set] at hlink
    split at hlink
    · cases hlink
      rw [he] at hc
      exact hc _ ht o ho
    · exact h id link hlink
  | cleanup he sid l o hl ho =>
    rw [OrdMap.get?_delete] at hlink
    split at hlink
    · cases hlink
    · exact h id link hlink
  | orphan he sid l hl ho =>
    rw [OrdMap.get?_delete] at hlink
    split at hlink
    · cases hlink
    · exact h id link hlink
  | ownerClose he T o ho => exact h id link (OrdMap.get?_filter_eq_some.mp hlink).1
  | clear => cases hlink

/-! ### The steps that open nothing -/

/-- The step takes out what it closes, and puts nothing in. -/
structure Removes (s : ControlState) (e : ControlEvent) (out : ControlState × List ControlEffect) :
    Prop where
  active : ∀ x, out.1.activeStreams.has x = true ↔ s.activeStreams.has x = true ∧ ¬ ClosedBy e out.2 x
  socket : ∀ x, out.1.rawStreams.has x = true ↔ s.rawStreams.has x = true ∧ ¬ SocketEnds e out.2 x
  kept : ∀ x k, out.1.keeps x k = true → s.keeps x k = true ∧ ¬ ClosedBy e out.2 x

/-- The effects close, destroy and connect nothing. -/
def Quiet (effects : List ControlEffect) : Prop :=
  ∀ x ∈ effects, ∀ id, x.closes id = false ∧ x.destroys id = false ∧ x.connects id = false

theorem encode_small {type : PublicTunnelFrame} {k : ℕ} {payload : Bytes} (hk : k < 2 ^ 32) :
    encodePublicTunnelFrame type k payload = .ok (type.code :: beBytes 4 k ++ payload) := if_pos hk

/-- A frame that is sent for an owner refuses nothing either. -/
theorem not_refuses_sendFrame {owner : JsString} {type : PublicTunnelFrame} {k : ℕ} {payload : Bytes}
    {y : ControlEffect} (hk : k < 2 ^ 32) (h : y ∈ sendFrame owner type k payload) (x : JsString) :
    y.refuses x = false := by
  unfold sendFrame at h
  rw [encode_small hk] at h
  rw [List.mem_singleton.mp h]
  rfl

theorem quiet_sendFrame (owner : JsString) (type : PublicTunnelFrame) (k : ℕ) (payload : Bytes) :
    Quiet (sendFrame owner type k payload) := by
  unfold sendFrame
  split
  · intro x hx id
    rw [List.mem_singleton.mp hx]
    exact ⟨rfl, rfl, rfl⟩
  · intro x hx id
    rw [List.mem_singleton.mp hx]
    exact ⟨rfl, rfl, rfl⟩

/-- The collections are the same. -/
def SameStreams (s s' : ControlState) : Prop :=
  s'.activeStreams = s.activeStreams ∧ s'.rawStreams = s.rawStreams ∧
    s'.publicTunnelOwners = s.publicTunnelOwners ∧ s'.publicTunnelStreams = s.publicTunnelStreams ∧
    s'.dataPlaneStreams = s.dataPlaneStreams

theorem SameStreams.keeps {s' : ControlState} (h : SameStreams s s') (x : JsString) (k : StreamKind) :
    s'.keeps x k = s.keeps x k := by
  obtain ⟨-, hraw, howners, hlinks, hdata⟩ := h
  cases k with
  | rawTunnel => simp only [ControlState.keeps, hraw]
  | publicTunnelOwner => simp only [ControlState.keeps, ControlState.ownerEntry?, howners]
  | publicTunnelStream => simp only [ControlState.keeps, hlinks]
  | dataPlane => simp only [ControlState.keeps, hdata]

/-- The event is not itself the end of a stream. -/
def ControlEvent.Neutral (e : ControlEvent) : Prop :=
  (∀ id, e ≠ .streamClose id) ∧ (∀ id, e ≠ .dataPlaneDone id) ∧ e ≠ .connectionClosed

theorem Removes.same {out : ControlState × List ControlEffect} (hs : SameStreams s out.1)
    (hclosed : ∀ x, s.activeStreams.has x = true → ¬ ClosedBy e out.2 x)
    (hends : ∀ x, s.rawStreams.has x = true → ¬ SocketEnds e out.2 x)
    (hkept : ∀ x k, s.keeps x k = true → s.activeStreams.has x = true) : Removes s e out where
  active := by
    intro x
    rw [hs.1]
    exact ⟨fun h => ⟨h, hclosed x h⟩, And.left⟩
  socket := by
    intro x
    rw [hs.2.1]
    exact ⟨fun h => ⟨h, hends x h⟩, And.left⟩
  kept := by
    intro x k h
    rw [hs.keeps] at h
    exact ⟨h, hclosed x (hkept x k h)⟩

namespace Books

theorem removes_quiet (h : Books p pre s l) {out : ControlState × List ControlEffect}
    (he : e.Neutral) (hsocket : ∀ x, e.endsSocket x = false) (hs : SameStreams s out.1)
    (hq : Quiet out.2) : Removes s e out := by
  refine .same hs ?_ ?_ fun x k hk => (h.kept x k hk).1
  · rintro x - (hx | hx | hx | ⟨y, hy, hx⟩)
    · exact he.1 x hx
    · exact he.2.1 x hx
    · exact he.2.2 hx
    · rw [(hq y hy x).1] at hx
      cases hx
  · rintro x - (hx | ⟨y, hy, hx⟩)
    · rw [hsocket] at hx
      cases hx
    · rw [(hq y hy x).2.1] at hx
      cases hx

/-- A linked stream is cleaned up, and the step closes it and nothing else. -/
theorem removes_cleanup (h : Books p pre s l) {id : JsString} {effects : List ControlEffect}
    (hl : s.publicTunnelStreams.has id = true) (hclosed : ∀ x, ClosedBy e effects x ↔ x = id)
    (hends : ∀ x, ¬ SocketEnds e effects x) : Removes s e (s.cleanupPublicTunnelStream id, effects) := by
  have hother : ∀ x k, k ≠ .publicTunnelStream → s.keeps x k = true → x ≠ id := by
    rintro x k hk hx rfl
    exact hk (h.apart hx hl)
  have howner : ∀ x, (ControlState.ownerEntry? (s.cleanupPublicTunnelStream id) x).isSome = true →
      (s.ownerEntry? x).isSome = true := by
    intro x hx
    obtain ⟨T, o, ho, rfl⟩ := ownerEntry?_isSome.mp hx
    unfold ControlState.cleanupPublicTunnelStream at ho
    split at ho
    · exact ownerEntry?_isSome.mpr ⟨T, o, ho, rfl⟩
    · dsimp only at ho
      split at ho
      · exact ownerEntry?_isSome.mpr ⟨T, o, ho, rfl⟩
      · rename_i link _ o' ho'
        rw [OrdMap.get?_set] at ho
        split at ho
        · cases ho
          exact ownerEntry?_isSome.mpr ⟨_, o', ho', rfl⟩
        · exact ownerEntry?_isSome.mpr ⟨T, o, ho, rfl⟩
  obtain ⟨link, hlink⟩ := Option.isSome_iff_exists.mp hl
  have hactive : (s.cleanupPublicTunnelStream id).activeStreams = s.activeStreams.delete id := by
    unfold ControlState.cleanupPublicTunnelStream
    rw [hlink]
  have hlinks : (s.cleanupPublicTunnelStream id).publicTunnelStreams = s.publicTunnelStreams.delete id := by
    unfold ControlState.cleanupPublicTunnelStream
    rw [hlink]
  have hraw : (s.cleanupPublicTunnelStream id).rawStreams = s.rawStreams := by
    unfold ControlState.cleanupPublicTunnelStream
    rw [hlink]
  have hdata : (s.cleanupPublicTunnelStream id).dataPlaneStreams = s.dataPlaneStreams := by
    unfold ControlState.cleanupPublicTunnelStream
    rw [hlink]
  constructor
  · intro x
    rw [hclosed, hactive, OrdMap.has_delete_iff]
    exact and_comm
  · intro x
    dsimp only
    rw [hraw]
    exact ⟨fun hx => ⟨hx, hends x⟩, And.left⟩
  · intro x k hk
    rw [hclosed]
    cases k with
    | rawTunnel =>
      change (s.cleanupPublicTunnelStream id).rawStreams.has x = true at hk
      rw [hraw] at hk
      exact ⟨hk, hother x .rawTunnel (by decide) hk⟩
    | publicTunnelOwner =>
      have hk' : s.keeps x .publicTunnelOwner = true := howner x hk
      exact ⟨hk', hother x _ (by decide) hk'⟩
    | publicTunnelStream =>
      change (s.cleanupPublicTunnelStream id).publicTunnelStreams.has x = true at hk
      rw [hlinks, OrdMap.has_delete_iff] at hk
      exact ⟨hk.2, hk.1⟩
    | dataPlane =>
      change (s.cleanupPublicTunnelStream id).dataPlaneStreams.has x = true at hk
      rw [hdata] at hk
      exact ⟨hk, hother x .dataPlane (by decide) hk⟩

end Books

/-! ### Every event -/

theorem quiet_nil : Quiet [] := by
  intro x hx
  cases hx

/-- Effects that are neither messages about a stream nor calls of a socket. -/
theorem quiet_singleton {x : ControlEffect} (h : ∀ id, x.closes id = false ∧ x.destroys id = false ∧
    x.connects id = false) : Quiet [x] := by
  intro y hy
  rw [List.mem_singleton.mp hy]
  exact h

theorem SameStreams.refl : SameStreams s s := ⟨rfl, rfl, rfl, rfl, rfl⟩

theorem neutral_data {id data : JsString} : (ControlEvent.streamData id data).Neutral :=
  ⟨fun _ h => (by cases h), fun _ h => (by cases h), fun h => (by cases h)⟩

/-- With data for an owner or for a linked stream, only a `STREAM_CLOSE` that is sent closes a stream. -/
theorem closedBy_sent {id data reason x y : JsString} :
    ClosedBy (.streamData id data) [.streamClose y reason] x ↔ x = y := by
  simp only [ClosedBy, ControlEffect.closes, List.mem_singleton, exists_eq_left, decide_eq_true_eq,
    reduceCtorEq, false_or]
  exact eq_comm

theorem not_socketEnds_sent {id data reason x y : JsString} :
    ¬ SocketEnds (.streamData id data) [.streamClose y reason] x := by
  simp [SocketEnds, ControlEvent.endsSocket, ControlEffect.destroys]

namespace Books

variable (h : Books p pre s l)
include h

theorem removes_ownerFrame {id data : JsString} {T : MapKey} {o : TunnelOwner}
    (ho : s.publicTunnelOwners.get? T = some o) (frame : DecodedFrame) :
    Removes s (.streamData id data) (s.handleOwnerFrame o frame) := by
  have quiet : ∀ {effects}, Quiet effects → Removes s (.streamData id data) (s, effects) :=
    fun hq => h.removes_quiet neutral_data (fun _ => rfl) .refl hq
  unfold ControlState.handleOwnerFrame
  split
  · exact quiet (quiet_sendFrame _ _ _ _)
  split
  · exact quiet quiet_nil
  split
  · exact quiet quiet_nil
  · exact quiet quiet_nil
  · rename_i serverStreamId _ hslot
    have hl : s.publicTunnelStreams.has serverStreamId = true := by
      unfold OrdMap.has
      rw [h.routes.slot ho hslot]
      rfl
    split
    · exact quiet (quiet_singleton fun _ => ⟨rfl, rfl, rfl⟩)
    split
    · exact h.removes_cleanup hl (fun _ => closedBy_sent) (fun _ => not_socketEnds_sent)
    split
    · exact h.removes_cleanup hl (fun _ => closedBy_sent) (fun _ => not_socketEnds_sent)
    · exact quiet quiet_nil

theorem removes_data (id data : JsString) : Removes s (.streamData id data) (s.handleData id data) := by
  have quiet : ∀ {s' effects}, SameStreams s s' → Quiet effects →
      Removes s (.streamData id data) (s', effects) :=
    fun hs hq => h.removes_quiet neutral_data (fun _ => rfl) hs hq
  unfold ControlState.handleData
  split
  · rename_i T o hentry
    split
    · exact h.removes_ownerFrame (ownerEntry?_spec hentry).1 _
    · exact quiet .refl quiet_nil
  · split
    · rename_i link hlink
      split
      · have hl : s.publicTunnelStreams.has id = true := by
          unfold OrdMap.has
          rw [hlink]
          rfl
        exact h.removes_cleanup hl (fun _ => closedBy_sent) (fun _ => not_socketEnds_sent)
      · exact quiet .refl (quiet_sendFrame _ _ _ _)
    · split
      · exact quiet .refl (quiet_singleton fun _ => ⟨rfl, rfl, rfl⟩)
      split
      · exact quiet .refl (quiet_singleton fun _ => ⟨rfl, rfl, rfl⟩)
      · exact quiet ⟨rfl, rfl, rfl, rfl, rfl⟩ (quiet_singleton fun _ => ⟨rfl, rfl, rfl⟩)

omit h in
/-- A stream that is in no map but those of the sockets and the sessions is dropped from all of them. -/
theorem removes_drop {id : JsString} {out : ControlState × List ControlEffect}
    (hactive : out.1.activeStreams = s.activeStreams.delete id)
    (hraw : ∀ x, out.1.rawStreams.has x = true ↔ x ≠ id ∧ s.rawStreams.has x = true)
    (hdata : ∀ x, out.1.dataPlaneStreams.has x = true ↔ x ≠ id ∧ s.dataPlaneStreams.has x = true)
    (howners : out.1.publicTunnelOwners = s.publicTunnelOwners)
    (hlinks : out.1.publicTunnelStreams = s.publicTunnelStreams)
    (hfree : ∀ k, s.keeps id k = true → k = .rawTunnel ∨ k = .dataPlane)
    (hclosed : ∀ x, ClosedBy e out.2 x ↔ x = id)
    (hends : ∀ x, s.rawStreams.has x = true → (SocketEnds e out.2 x ↔ x = id)) : Removes s e out where
  active := by
    intro x
    rw [hclosed, hactive, OrdMap.has_delete_iff]
    exact and_comm
  socket := by
    intro x
    rw [hraw]
    constructor
    · rintro ⟨hne, hx⟩
      exact ⟨hx, fun hend => hne ((hends x hx).mp hend)⟩
    · rintro ⟨hx, hend⟩
      exact ⟨fun heq => hend ((hends x hx).mpr heq), hx⟩
  kept := by
    intro x k hk
    rw [hclosed]
    cases k with
    | rawTunnel => exact ((hraw x).mp hk).symm
    | dataPlane => exact ((hdata x).mp hk).symm
    | publicTunnelOwner =>
      have hk' : s.keeps x .publicTunnelOwner = true := by
        simpa only [ControlState.keeps, ControlState.ownerEntry?, howners] using hk
      refine ⟨hk', ?_⟩
      rintro rfl
      rcases hfree _ hk' with hc | hc <;> cases hc
    | publicTunnelStream =>
      have hk' : s.keeps x .publicTunnelStream = true := by
        simpa only [ControlState.keeps, hlinks] using hk
      refine ⟨hk', ?_⟩
      rintro rfl
      rcases hfree _ hk' with hc | hc <;> cases hc

theorem removes_closeOwner {id : JsString} {T : MapKey} {o : TunnelOwner}
    (hentry : s.ownerEntry? id = some (T, o)) :
    Removes s (.streamClose id) (s.closeOwner id T o) := by
  obtain ⟨ho, hid⟩ := ownerEntry?_spec hentry
  have hown : s.keeps id .publicTunnelOwner = true := by
    simp only [ControlState.keeps, hentry, Option.isSome_some]
  have hclosed : ∀ x, ClosedBy (.streamClose id) (s.closeOwner id T o).2 x ↔
      x = id ∨ o.serverToOwner.keys.contains x = true := by
    intro x
    simp only [ClosedBy, ControlState.closeOwner, List.mem_map, List.contains_iff_mem]
    constructor
    · rintro (hx | hx | hx | ⟨y, ⟨sid, hsid, rfl⟩, hy⟩)
      · cases hx
        exact .inl rfl
      · cases hx
      · cases hx
      · have heq : sid = x := by simpa [ControlEffect.closes] using hy
        exact .inr (heq ▸ hsid)
    · rintro (rfl | hx)
      · exact .inl rfl
      · exact .inr (.inr (.inr ⟨_, ⟨x, hx, rfl⟩, by simp [ControlEffect.closes]⟩))
  have hends : ∀ x, ¬ SocketEnds (.streamClose id) (s.closeOwner id T o).2 x := by
    simp [SocketEnds, ControlEvent.endsSocket, ControlState.closeOwner, ControlEffect.destroys]
  have hlinked : ∀ x, o.serverToOwner.keys.contains x = true →
      s.keeps x .publicTunnelStream = true := by
    intro x hx
    obtain ⟨k, hk⟩ := OrdMap.mem_keys_iff.mp (List.contains_iff_mem.mp hx)
    have hl := h.routes.back ho hk
    simp only [ControlState.keeps, OrdMap.has, hl, Option.isSome_some]
  -- what is closed is the owner stream and linked streams: nothing in the other two maps
  have hother : ∀ x k, k = .rawTunnel ∨ k = .dataPlane → s.keeps x k = true →
      ¬ ClosedBy (.streamClose id) (s.closeOwner id T o).2 x := by
    intro x k hk hx hc
    rcases (hclosed x).mp hc with rfl | hc
    · have := h.apart hx hown
      subst this
      rcases hk with hk | hk <;> cases hk
    · have := h.apart hx (hlinked x hc)
      subst this
      rcases hk with hk | hk <;> cases hk
  constructor
  · intro x
    rw [hclosed]
    change ((s.activeStreams.filter fun e => !o.serverToOwner.keys.contains e.1).delete id).has x = true ↔ _
    rw [OrdMap.has_delete_iff, OrdMap.has_filter_iff (q := fun k => !o.serverToOwner.keys.contains k),
      Bool.not_eq_true']
    constructor
    · rintro ⟨hne, hq, hx⟩
      refine ⟨hx, ?_⟩
      rintro (hc | hc)
      · exact hne hc
      · rw [hq] at hc
        cases hc
    · rintro ⟨hx, hc⟩
      exact ⟨fun hne => hc (.inl hne), Bool.eq_false_iff.mpr fun hq => hc (.inr hq), hx⟩
  · intro x
    exact ⟨fun hx => ⟨hx, hends x⟩, And.left⟩
  · intro x k hk
    cases k with
    | rawTunnel => exact ⟨hk, hother x _ (.inl rfl) hk⟩
    | dataPlane => exact ⟨hk, hother x _ (.inr rfl) hk⟩
    | publicTunnelOwner =>
      obtain ⟨T', o', ho', rfl⟩ := ownerEntry?_isSome.mp hk
      change (s.publicTunnelOwners.delete T).get? T' = some o' at ho'
      rw [OrdMap.get?_delete] at ho'
      split at ho'
      · cases ho'
      · rename_i hT
        have hk' : s.keeps o'.streamId .publicTunnelOwner = true :=
          ownerEntry?_isSome.mpr ⟨T', o', ho', rfl⟩
        refine ⟨hk', ?_⟩
        rw [hclosed]
        rintro (hc | hc)
        · exact hT (h.routes.owners ho' ho (hc.trans hid.symm))
        · cases h.apart hk' (hlinked _ hc)
    | publicTunnelStream =>
      change (s.publicTunnelStreams.filter fun e => !o.serverToOwner.keys.contains e.1).has x = true at hk
      rw [OrdMap.has_filter_iff (q := fun k => !o.serverToOwner.keys.contains k), Bool.not_eq_true'] at hk
      have hk' : s.keeps x .publicTunnelStream = true := hk.2
      refine ⟨hk', ?_⟩
      rw [hclosed]
      rintro (rfl | hc)
      · cases h.apart hk' hown
      · rw [hk.1] at hc
        cases hc

end Books

namespace Books

variable (h : Books p pre s l)
include h

theorem removes_close (id : JsString) : Removes s (.streamClose id) (s.handleClose id) := by
  have hquiet : ∀ {effects}, Quiet effects → ∀ x, ClosedBy (.streamClose id) effects x ↔ x = id := by
    intro effects hq x
    constructor
    · rintro (hx | hx | hx | ⟨y, hy, hx⟩)
      · cases hx
        rfl
      · cases hx
      · cases hx
      · rw [(hq y hy x).1] at hx
        cases hx
    · rintro rfl
      exact .inl rfl
  have hends : ∀ {effects}, Quiet effects → ∀ x, ¬ SocketEnds (.streamClose id) effects x := by
    rintro effects hq x (hx | ⟨y, hy, hx⟩)
    · cases hx
    · rw [(hq y hy x).2.1] at hx
      cases hx
  unfold ControlState.handleClose
  split
  · rename_i T o hentry
    exact h.removes_closeOwner hentry
  · rename_i hentry
    split
    · rename_i link hlink
      have hl : s.publicTunnelStreams.has id = true := by
        unfold OrdMap.has
        rw [hlink]
        rfl
      split
      · exact h.removes_cleanup hl (hquiet quiet_nil) (hends quiet_nil)
      · rename_i o ho
        rw [encode_small (h.numbers id link hlink)]
        have hq : ∀ frame, Quiet [.streamData o.streamId frame] :=
          fun _ => quiet_singleton fun _ => ⟨rfl, rfl, rfl⟩
        exact h.removes_cleanup hl (hquiet (hq _)) (hends (hq _))
    · rename_i hlink
      have hfree : ∀ k, s.keeps id k = true → k = .rawTunnel ∨ k = .dataPlane := by
        intro k hk
        cases k with
        | rawTunnel => exact .inl rfl
        | dataPlane => exact .inr rfl
        | publicTunnelOwner =>
          simp only [ControlState.keeps, hentry, Option.isSome_none, Bool.false_eq_true] at hk
        | publicTunnelStream =>
          simp only [ControlState.keeps, OrdMap.has, hlink, Option.isSome_none, Bool.false_eq_true] at hk
      split
      · rename_i hdata
        have hq : Quiet [.dataPlaneFail id (js "client stream closed")] :=
          quiet_singleton fun _ => ⟨rfl, rfl, rfl⟩
        have hraw : ∀ x, s.rawStreams.has x = true → x ≠ id := by
          rintro x hx rfl
          have hkind : StreamKind.rawTunnel = .dataPlane := h.apart hx hdata
          cases hkind
        refine removes_drop rfl (fun x => ?_) (fun x => OrdMap.has_delete_iff) rfl rfl hfree (hquiet hq)
          fun x hx => ?_
        · exact ⟨fun hx => ⟨hraw x hx, hx⟩, And.right⟩
        · exact iff_of_false (hends hq x) (hraw x hx)
      · rename_i hdata
        refine removes_drop rfl (fun x => OrdMap.has_delete_iff) (fun x => ?_) rfl rfl hfree (fun x => ?_)
          fun x hx => ?_
        · refine ⟨fun hx => ⟨?_, hx⟩, And.right⟩
          rintro rfl
          exact hdata hx
        · dsimp only
          split
          · simp only [ClosedBy, ControlEffect.closes, List.mem_singleton, exists_eq_left,
              ControlEvent.streamClose.injEq, reduceCtorEq, Bool.false_eq_true, or_false]
            exact eq_comm
          · exact hquiet quiet_nil x
        · dsimp only
          split
          · simp only [SocketEnds, ControlEvent.endsSocket, ControlEffect.destroys, List.mem_singleton,
              exists_eq_left, decide_eq_true_eq, Bool.false_eq_true, false_or]
            exact eq_comm
          · rename_i hraw
            refine iff_of_false (hends quiet_nil x) ?_
            rintro rfl
            exact hraw hx

/-- The socket or the session of a stream ends. -/
theorem removes_socketClosed (id : JsString) :
    Removes s (.socketClosed id) (s.handle p (.socketClosed id)) := by
  simp only [ControlState.handle]
  split
  · rename_i hraw
    refine removes_drop rfl (fun x => OrdMap.has_delete_iff) (fun x => ?_) rfl rfl (fun k hk => ?_)
      (fun x => ?_) fun x hx => ?_
    · refine ⟨fun hx => ⟨?_, hx⟩, And.right⟩
      rintro rfl
      have hkind : StreamKind.rawTunnel = .dataPlane := h.apart hraw hx
      cases hkind
    · exact .inl (h.apart hk hraw)
    · simp only [ClosedBy, ControlEffect.closes, List.mem_singleton, exists_eq_left, decide_eq_true_eq,
        reduceCtorEq, false_or]
      exact eq_comm
    · simp only [SocketEnds, ControlEvent.endsSocket, ControlEffect.destroys, List.mem_singleton,
        exists_eq_left, decide_eq_true_eq, Bool.false_eq_true, or_false]
      exact eq_comm
  · rename_i hraw
    refine .same .refl ?_ ?_ fun x k hk => (h.kept x k hk).1
    · rintro x - (hx | hx | hx | ⟨y, hy, -⟩)
      · cases hx
      · cases hx
      · cases hx
      · cases hy
    · rintro x hx (hend | ⟨y, hy, -⟩)
      · have heq : id = x := of_decide_eq_true hend
        subst heq
        exact hraw hx
      · cases hy

end Books

namespace Books

theorem removes_socketError (h : Books p pre s l) {id message : JsString}
    (ho : Orderly p pre (.socketError id message)) :
    Removes s (.socketError id message) (s.handle p (.socketError id message)) := by
  have hopened := ho.connected id rfl
  have hfree : ∀ k, s.keeps id k = true → k = .rawTunnel := by
    intro k hk
    exact (h.kept id k hk).2.unique h.once hopened
  refine removes_drop rfl (fun x => OrdMap.has_delete_iff) (fun x => ?_) rfl rfl
    (fun k hk => .inl (hfree k hk)) (fun x => ?_) fun x hx => ?_
  · refine ⟨fun hx => ⟨?_, hx⟩, And.right⟩
    rintro rfl
    cases hfree .dataPlane hx
  · simp only [ClosedBy, ControlState.handle, ControlEffect.closes, List.mem_cons, List.not_mem_nil,
      or_false, exists_eq_or_imp, exists_eq_left, decide_eq_true_eq, reduceCtorEq, Bool.false_eq_true,
      false_or]
    exact eq_comm
  · simp only [SocketEnds, ControlState.handle, ControlEvent.endsSocket, ControlEffect.destroys,
      List.mem_cons, List.not_mem_nil, or_false, exists_eq_or_imp, exists_eq_left, decide_eq_true_eq,
      Bool.false_eq_true]
    exact eq_comm

theorem removes_dataPlaneDone (h : Books p pre s l) {id : JsString}
    (ho : Orderly p pre (.dataPlaneDone id)) :
    Removes s (.dataPlaneDone id) (s.handle p (.dataPlaneDone id)) := by
  have hopened := ho.started id rfl
  have hfree : ∀ k, s.keeps id k = true → k = .dataPlane := by
    intro k hk
    exact (h.kept id k hk).2.unique h.once hopened
  have hraw : ∀ x, s.rawStreams.has x = true → x ≠ id := by
    rintro x hx rfl
    cases hfree .rawTunnel hx
  refine removes_drop rfl (fun x => ?_) (fun x => OrdMap.has_delete_iff) rfl rfl
    (fun k hk => .inr (hfree k hk)) (fun x => ?_) fun x hx => ?_
  · exact ⟨fun hx => ⟨hraw x hx, hx⟩, And.right⟩
  · simp only [ClosedBy, ControlState.handle, List.not_mem_nil, false_and, exists_false, reduceCtorEq,
      ControlEvent.dataPlaneDone.injEq, or_false, false_or]
    exact eq_comm
  · refine iff_of_false ?_ (hraw x hx)
    rintro (hend | ⟨y, hy, -⟩)
    · cases hend
    · cases hy

theorem removes_connectionClosed (s : ControlState) :
    Removes s .connectionClosed s.handleConnectionClosed := by
  have hclosed : ∀ x, ClosedBy .connectionClosed s.handleConnectionClosed.2 x :=
    fun x => .inr (.inr (.inl rfl))
  constructor
  · intro x
    refine iff_of_false ?_ fun hx => hx.2 (hclosed x)
    intro hx
    cases hx
  · intro x
    refine iff_of_false ?_ ?_
    · intro hx
      cases hx
    · rintro ⟨hx, hend⟩
      refine hend (.inr ⟨.socketDestroy x, ?_, decide_eq_true rfl⟩)
      exact List.mem_append_left _ (List.mem_map_of_mem (OrdMap.has_iff.mp hx))
  · intro x k hk
    cases k <;> cases hk

/-- **What every event but an open does.** -/
theorem removes (h : Books p pre s l) (ho : Orderly p pre e) (hopen : e.opened = ∅) : Removes s e (s.handle p e) := by
  have quiet : ∀ {s' effects}, e.Neutral → (∀ x, e.endsSocket x = false) → SameStreams s s' →
      Quiet effects → Removes s e (s', effects) :=
    fun he hs hsame hq => h.removes_quiet he hs hsame hq
  cases e with
  | streamOpen id target => exact absurd hopen (Finset.singleton_ne_empty id)
  | streamData id data => exact h.removes_data id data
  | streamClose id => exact h.removes_close id
  | socketData id data =>
    refine quiet ⟨fun _ hx => ?_, fun _ hx => ?_, fun hx => ?_⟩ (fun _ => rfl) .refl
      (quiet_singleton fun _ => ⟨rfl, rfl, rfl⟩)
    all_goals cases hx
  | socketClosed id => exact h.removes_socketClosed id
  | socketError id message => exact h.removes_socketError ho
  | dataPlaneDone id => exact h.removes_dataPlaneDone ho
  | executed id output =>
    refine quiet ⟨fun _ hx => ?_, fun _ hx => ?_, fun hx => ?_⟩ (fun _ => rfl) ⟨rfl, rfl, rfl, rfl, rfl⟩ ?_
    · cases hx
    · cases hx
    · cases hx
    · split
      · exact quiet_singleton fun _ => ⟨rfl, rfl, rfl⟩
      · exact quiet_singleton fun _ => ⟨rfl, rfl, rfl⟩
  | connectionClosed => exact removes_connectionClosed s

/-! ### The entries -/

theorem mem_streams_note {effects : List ControlEffect} {x : JsString} :
    x ∈ (l.note e effects).streams ↔
      (x ∈ l.streams ∨ x ∈ accepted e effects) ∧ ¬ ClosedBy e effects x := by
  simp only [Ledger.note, Finset.mem_filter, Finset.mem_union]

theorem mem_sockets_note {effects : List ControlEffect} {x : JsString} :
    x ∈ (l.note e effects).sockets ↔
      (x ∈ l.sockets ∨ x ∈ connected e effects) ∧ ¬ SocketEnds e effects x := by
  simp only [Ledger.note, Finset.mem_filter, Finset.mem_union]

theorem once_concat (h : (openIds pre).Nodup) (ho : Orderly p pre e) : (openIds (pre ++ [e])).Nodup := by
  cases e with
  | streamOpen id target =>
    rw [openIds_concat_open]
    have hnew := ho.opensOnce id (Finset.mem_singleton_self id)
    exact h.append (List.nodup_singleton id) (List.disjoint_singleton.mpr hnew)
  | _ => simpa [openIds] using h

/-- Without active streams the collections are empty. -/
theorem empty_of_inactive {s : ControlState} (hkept : ∀ x k, s.keeps x k = true → s.activeStreams.has x = true)
    (hnone : ∀ x, s.activeStreams.has x = false) : s.activeStreams = ∅ ∧ s.rawStreams = ∅ ∧
      s.dataPlaneStreams = ∅ ∧ s.publicTunnelStreams = ∅ ∧ s.publicTunnelOwners = ∅ := by
  have hk : ∀ x k, s.keeps x k = false := by
    intro x k
    rw [Bool.eq_false_iff]
    intro hx
    have hactive := hkept x k hx
    rw [hnone x] at hactive
    cases hactive
  refine ⟨OrdMap.eq_empty hnone, OrdMap.eq_empty fun x => hk x .rawTunnel,
    OrdMap.eq_empty fun x => hk x .dataPlane, OrdMap.eq_empty fun x => hk x .publicTunnelStream,
    OrdMap.eq_empty fun T => ?_⟩
  rw [Bool.eq_false_iff]
  intro hT
  obtain ⟨o, ho⟩ := Option.isSome_iff_exists.mp hT
  have howner : s.keeps o.streamId .publicTunnelOwner = true := ownerEntry?_isSome.mpr ⟨T, o, ho, rfl⟩
  rw [hk] at howner
  cases howner

/-- The books after a step that opens nothing. -/
theorem note_removes (h : Books p pre s l) (ho : Orderly p pre e) {out : ControlState × List ControlEffect}
    (hr : Removes s e out) (hacc : accepted e out.2 = ∅) (hconn : connected e out.2 = ∅)
    (hroutes : RoutesLinked out.1.publicTunnelOwners out.1.publicTunnelStreams)
    (hnumbers : NumbersEncode out.1.publicTunnelStreams) :
    Books p (pre ++ [e]) out.1 (l.note e out.2) := by
  have hkept : ∀ x k, out.1.keeps x k = true → out.1.activeStreams.has x = true := by
    intro x k hk
    obtain ⟨hk', hc⟩ := hr.kept x k hk
    exact (hr.active x).mpr ⟨(h.kept x k hk').1, hc⟩
  constructor
  case once => exact once_concat h.once ho
  case exact =>
    intro x
    rw [hr.active, mem_streams_note, hacc, h.exact]
    simp only [Finset.notMem_empty, or_false]
  case sockets =>
    intro x
    rw [hr.socket, mem_sockets_note, hconn, h.sockets]
    simp only [Finset.notMem_empty, or_false]
  case opened => exact fun x hx => openIds_subset pre [e] (h.opened x ((hr.active x).mp hx).1)
  case kept =>
    intro x k hk
    have hopened := (h.kept x k (hr.kept x k hk).1).2
    exact ⟨hkept x k hk, hopened.later e⟩
  case routes => exact hroutes
  case numbers => exact hnumbers
  case closed =>
    intro hc
    refine empty_of_inactive hkept fun x => ?_
    rw [Bool.eq_false_iff]
    intro hx
    obtain ⟨hx, hnot⟩ := (hr.active x).mp hx
    rcases List.mem_append.mp hc with hc | hc
    · rw [(h.closed hc).1] at hx
      cases hx
    · exact hnot (.inr (.inr (.inl (List.mem_singleton.mp hc).symm)))

end Books

/-! ### The opens -/

theorem ControlEffect.refuses_of_closes {x : ControlEffect} {id : JsString} (h : x.closes id = true) :
    x.refuses id = true := by
  cases x <;> first | exact h | cases h

/-- The step makes `id` active and puts it in the map of its kind, if it has one. -/
structure Adds (s s' : ControlState) (id : JsString) (kind : Option StreamKind) : Prop where
  active : ∀ x, s'.activeStreams.has x = true ↔ x = id ∨ s.activeStreams.has x = true
  socket : ∀ x, s'.rawStreams.has x = true ↔
    x = id ∧ kind = some .rawTunnel ∨ s.rawStreams.has x = true
  kept : ∀ x k, s'.keeps x k = true → x = id ∧ kind = some k ∨ s.keeps x k = true

section Adds

variable {id : JsString}

/-- A proxy session is in no map. -/
theorem adds_session : Adds s { s with opens := s.opens + 1, activeStreams := s.activeStreams.set id () } id none where
  active := fun x => OrdMap.has_set_iff
  socket := fun x => by simp
  kept := by
    intro x k hk
    cases k <;> exact .inr hk

theorem adds_owner (T : MapKey) :
    Adds s (ControlState.openOwner { s with opens := s.opens + 1 } id T) id (some .publicTunnelOwner) where
  active := fun x => OrdMap.has_set_iff
  socket := fun x => by simp [ControlState.openOwner]
  kept := by
    intro x k hk
    cases k with
    | publicTunnelOwner =>
      obtain ⟨T', o, hT, rfl⟩ := ownerEntry?_isSome.mp hk
      change (s.publicTunnelOwners.set T { streamId := id }).get? T' = some o at hT
      rw [OrdMap.get?_set] at hT
      split at hT
      · cases hT
        exact .inl ⟨rfl, rfl⟩
      · exact .inr (ownerEntry?_isSome.mpr ⟨T', o, hT, rfl⟩)
    | _ => exact .inr hk

/-- The owner of the tunnel stays the owner. -/
theorem adds_stream {T : MapKey} {o : TunnelOwner} (ho : s.publicTunnelOwners.get? T = some o) :
    Adds s { s with
      opens := s.opens + 1
      publicTunnelOwners := s.publicTunnelOwners.set T (o.link id)
      publicTunnelStreams := s.publicTunnelStreams.set id ⟨T, o.nextStreamId⟩
      activeStreams := s.activeStreams.set id () } id (some .publicTunnelStream) where
  active := fun x => OrdMap.has_set_iff
  socket := fun x => by simp
  kept := by
    intro x k hk
    cases k with
    | publicTunnelOwner =>
      obtain ⟨T', o', hT, rfl⟩ := ownerEntry?_isSome.mp hk
      change (s.publicTunnelOwners.set T (o.link id)).get? T' = some o' at hT
      rw [OrdMap.get?_set] at hT
      split at hT
      · cases hT
        exact .inr (ownerEntry?_isSome.mpr ⟨_, o, ho, rfl⟩)
      · exact .inr (ownerEntry?_isSome.mpr ⟨T', o', hT, rfl⟩)
    | publicTunnelStream =>
      rcases OrdMap.has_set_iff.mp hk with rfl | hk
      · exact .inl ⟨rfl, rfl⟩
      · exact .inr hk
    | _ => exact .inr hk

theorem adds_dataPlane :
    Adds s { s with
      opens := s.opens + 1
      activeStreams := s.activeStreams.set id ()
      dataPlaneStreams := s.dataPlaneStreams.set id () } id (some .dataPlane) where
  active := fun x => OrdMap.has_set_iff
  socket := fun x => by simp
  kept := by
    intro x k hk
    cases k with
    | dataPlane =>
      rcases OrdMap.has_set_iff.mp hk with rfl | hk
      · exact .inl ⟨rfl, rfl⟩
      · exact .inr hk
    | _ => exact .inr hk

theorem adds_raw :
    Adds s { s with
      opens := s.opens + 1
      activeStreams := s.activeStreams.set id ()
      rawStreams := s.rawStreams.set id () } id (some .rawTunnel) where
  active := fun x => OrdMap.has_set_iff
  socket := fun x => by simp [OrdMap.has_set_iff]
  kept := by
    intro x k hk
    cases k with
    | rawTunnel =>
      rcases OrdMap.has_set_iff.mp hk with rfl | hk
      · exact .inl ⟨rfl, rfl⟩
      · exact .inr hk
    | _ => exact .inr hk

theorem kind_of_target {target : Option JsString} {t : StreamTarget} (ht : parseStreamTarget p target = some t) :
    ∀ k, some t.kind = some k → (parseStreamTarget p target).map StreamTarget.kind = some k := by
  intro k hk
  rw [ht]
  exact hk

end Adds

namespace Books

theorem note_adds (h : Books p pre s l) {id : JsString} {target : Option JsString}
    {out : ControlState × List ControlEffect} (kind : Option StreamKind)
    (ho : Orderly p pre (.streamOpen id target)) (ha : Adds s out.1 id kind)
    (htarget : ∀ k, kind = some k → (parseStreamTarget p target).map StreamTarget.kind = some k)
    (haccepted : ∀ y ∈ out.2, ∀ x, y.refuses x = false ∧ y.destroys x = false)
    (hconn : (∃ y ∈ out.2, y.connects id = true) ↔ kind = some .rawTunnel)
    (hroutes : RoutesLinked out.1.publicTunnelOwners out.1.publicTunnelStreams)
    (hnumbers : NumbersEncode out.1.publicTunnelStreams) :
    Books p (pre ++ [.streamOpen id target]) out.1 (l.note (.streamOpen id target) out.2) := by
  have hclosed : ∀ x, ¬ ClosedBy (.streamOpen id target) out.2 x := by
    rintro x (hx | hx | hx | ⟨y, hy, hx⟩)
    · cases hx
    · cases hx
    · cases hx
    · have hno := (haccepted y hy x).1
      rw [ControlEffect.refuses_of_closes hx] at hno
      cases hno
  have hends : ∀ x, ¬ SocketEnds (.streamOpen id target) out.2 x := by
    rintro x (hx | ⟨y, hy, hx⟩)
    · cases hx
    · rw [(haccepted y hy x).2] at hx
      cases hx
  have hacc : ∀ x, x ∈ accepted (.streamOpen id target) out.2 ↔ x = id := by
    intro x
    simp only [accepted, ControlEvent.opened, Finset.mem_filter, Finset.mem_singleton]
    exact and_iff_left fun y hy => (haccepted y hy x).1
  have hconnected : ∀ x, x ∈ connected (.streamOpen id target) out.2 ↔
      x = id ∧ kind = some .rawTunnel := by
    intro x
    simp only [connected, ControlEvent.opened, Finset.mem_filter, Finset.mem_singleton]
    refine and_congr_right fun hx => ?_
    rw [hx]
    exact hconn
  constructor
  case once => exact once_concat h.once ho
  case exact =>
    intro x
    rw [ha.active, mem_streams_note, hacc, h.exact, and_iff_left (hclosed x), or_comm]
  case sockets =>
    intro x
    rw [ha.socket, mem_sockets_note, hconnected, h.sockets, and_iff_left (hends x), or_comm]
  case opened =>
    intro x hx
    rcases (ha.active x).mp hx with rfl | hx
    · rw [openIds_concat_open]
      exact List.mem_append_right _ (List.mem_singleton_self x)
    · exact openIds_subset pre _ (h.opened x hx)
  case kept =>
    intro x k hk
    rcases ha.kept x k hk with ⟨rfl, hkind⟩ | hk
    · have hopens : (ControlEvent.streamOpen x target).opensAs p x k = true :=
        opensAs_iff.mpr ⟨target, rfl, htarget k hkind⟩
      exact ⟨(ha.active x).mpr (.inl rfl), _, List.mem_append_right _ (List.mem_singleton_self _), hopens⟩
    · obtain ⟨hactive, hopened⟩ := h.kept x k hk
      exact ⟨(ha.active x).mpr (.inr hactive), hopened.later _⟩
  case routes => exact hroutes
  case numbers => exact hnumbers
  case closed =>
    intro hc
    rcases List.mem_append.mp hc with hc | hc
    · exact absurd hc (ho.delivered rfl)
    · cases List.mem_singleton.mp hc

/-- An open that is refused changes none of the collections. -/
theorem note_refused (h : Books p pre s l) {id : JsString} {target : Option JsString}
    {out : ControlState × List ControlEffect} (ho : Orderly p pre (.streamOpen id target))
    (hs : SameStreams s out.1) {y : ControlEffect} (hout : out.2 = [y]) (hrefuses : y.refuses id = true)
    (hother : ∀ x, (x ≠ id → y.closes x = false) ∧ y.destroys x = false ∧ y.connects x = false) :
    Books p (pre ++ [.streamOpen id target]) out.1 (l.note (.streamOpen id target) out.2) := by
  have hnew : ∀ x, s.activeStreams.has x = true → x ≠ id := by
    rintro x hx rfl
    exact ho.opensOnce x (Finset.mem_singleton_self x) (h.opened x hx)
  refine h.note_removes ho (.same hs ?_ ?_ fun x k hk => (h.kept x k hk).1) ?_ ?_ ?_ ?_
  · rintro x hx (hc | hc | hc | ⟨z, hz, hc⟩)
    · cases hc
    · cases hc
    · cases hc
    · rw [hout] at hz
      rw [List.mem_singleton.mp hz, (hother x).1 (hnew x hx)] at hc
      cases hc
  · rintro x hx (hc | ⟨z, hz, hc⟩)
    · cases hc
    · rw [hout] at hz
      rw [List.mem_singleton.mp hz, (hother x).2.1] at hc
      cases hc
  · refine Finset.eq_empty_of_forall_notMem fun x hx => ?_
    obtain ⟨hid, hno⟩ := Finset.mem_filter.mp hx
    have hyes := hno y (by rw [hout]; exact List.mem_singleton_self y)
    rw [Finset.mem_singleton.mp hid, hrefuses] at hyes
    cases hyes
  · refine Finset.eq_empty_of_forall_notMem fun x hx => ?_
    obtain ⟨-, z, hz, hc⟩ := Finset.mem_filter.mp hx
    rw [hout] at hz
    rw [List.mem_singleton.mp hz, (hother x).2.2] at hc
    cases hc
  · rw [hs.2.2.1, hs.2.2.2.1]
    exact h.routes
  · rw [hs.2.2.2.1]
    exact h.numbers

/-- **What an open does.** -/
theorem note_open (h : Books p pre s l) {id : JsString} {target : Option JsString}
    (ho : Orderly p pre (.streamOpen id target)) (hc : OpenCompletes p s (.streamOpen id target))
    (hroutes : RoutesLinked (s.handleOpen p id target).1.publicTunnelOwners
      (s.handleOpen p id target).1.publicTunnelStreams)
    (hnumbers : NumbersEncode (s.handleOpen p id target).1.publicTunnelStreams) :
    Books p (pre ++ [.streamOpen id target]) (s.handleOpen p id target).1
      (l.note (.streamOpen id target) (s.handleOpen p id target).2) := by
  revert hroutes hnumbers
  unfold ControlState.handleOpen
  dsimp only
  split
  · intro hroutes hnumbers
    refine h.note_adds none ho adds_session ?_ ?_ ?_ hroutes hnumbers
    · simp
    · simp
    · simp
  · split
    · rename_i t ht
      intro hroutes hnumbers
      refine h.note_adds _ ho (adds_owner _) (kind_of_target ht) ?_ ?_ hroutes hnumbers
      · simp
      · simp
    · rename_i t init ht
      unfold ControlState.openPublicStream
      split
      · intro hroutes hnumbers
        refine h.note_refused ho ⟨rfl, rfl, rfl, rfl, rfl⟩ rfl (decide_eq_true rfl)
          fun x => ⟨fun hx => ?_, rfl, rfl⟩
        simpa [ControlEffect.closes] using hx.symm
      · rename_i o hT
        intro hroutes hnumbers
        refine h.note_adds _ ho (adds_stream hT) (kind_of_target ht) ?_ ?_ hroutes hnumbers
        · intro y hy x
          exact ⟨not_refuses_sendFrame (hc _ ht o hT) hy x, (quiet_sendFrame _ _ _ _ y hy x).2.1⟩
        · refine iff_of_false ?_ (by simp)
          rintro ⟨y, hy, hc⟩
          rw [(quiet_sendFrame _ _ _ _ y hy id).2.2] at hc
          cases hc
    · rename_i ht
      intro hroutes hnumbers
      refine h.note_adds _ ho adds_dataPlane (kind_of_target ht) ?_ ?_ hroutes hnumbers
      · simp [ControlEffect.refuses, ControlEffect.destroys]
      · simp [ControlEffect.connects]
    · intro hroutes hnumbers
      exact h.note_refused ho ⟨rfl, rfl, rfl, rfl, rfl⟩ rfl rfl fun x => ⟨fun _ => rfl, rfl, rfl⟩
    · rename_i host port ht
      have hconnection : (p.createConnection host port).isOk = true := hc _ ht
      split
      · rename_i err herr
        rw [herr] at hconnection
        cases hconnection
      · intro hroutes hnumbers
        refine h.note_adds _ ho adds_raw (kind_of_target ht) ?_ ?_ hroutes hnumbers
        · simp [ControlEffect.refuses, ControlEffect.destroys]
        · simp [ControlEffect.connects]

end Books

/-! ### Runs -/

namespace Books

theorem step {st : ControlState × Ledger} (h : Books p pre st.1 st.2) (ho : Orderly p pre e)
    (hc : OpenCompletes p st.1 e) :
    Books p (pre ++ [e]) (auditStep p st e).1 (auditStep p st e).2 := by
  have hnew : ∀ id ∈ e.opened, ∀ k, st.1.keeps id k = false := by
    intro id hid k
    rw [Bool.eq_false_iff]
    intro hk
    exact ho.opensOnce id hid (h.opened id (h.kept id k hk).1)
  have hlinks : ∀ id ∈ e.opened, st.1.publicTunnelStreams.get? id = none :=
    fun id hid => OrdMap.not_has_iff.mp (hnew id hid .publicTunnelStream)
  have hr := reroutes (p := p) st.1 e
  have hroutes := h.routes.step hlinks (fun id hid => hnew id hid .publicTunnelOwner) hr
  have hnumbers := h.numbers.step hc hr
  by_cases hopen : e.opened = ∅
  · have hempty : ∀ effects, accepted e effects = ∅ ∧ connected e effects = ∅ := by
      intro effects
      simp only [accepted, connected, hopen, Finset.filter_empty, and_self]
    exact h.note_removes ho (h.removes ho hopen) (hempty _).1 (hempty _).2 hroutes hnumbers
  · cases e with
    | streamOpen id target => exact h.note_open ho hc hroutes hnumbers
    | _ => exact absurd rfl hopen

end Books

theorem books_nil : Books p [] {} {} where
  once := List.nodup_nil
  exact := fun id => iff_of_false (fun h => by cases h) (Finset.notMem_empty id)
  sockets := fun id => iff_of_false (fun h => by cases h) (Finset.notMem_empty id)
  opened := fun id h => by cases h
  kept := fun id k h => by cases k <;> cases h
  routes := ⟨fun h => (by cases h), fun h => (by cases h), fun h => (by cases h)⟩
  numbers := fun _ _ h => by cases h
  closed := fun h => by cases h

theorem books_run {events : List ControlEvent}
    (ho : Steps (auditStep p) (fun pre _ e => Orderly p pre e) ({}, {}) events)
    (hc : Steps (auditStep p) (fun _ st e => OpenCompletes p st.1 e) ({}, {}) events) :
    Books p events (run (auditStep p) ({}, {}) events).1 (run (auditStep p) ({}, {}) events).2 := by
  have hboth : Steps (auditStep p) (fun pre st e => Orderly p pre e ∧ OpenCompletes p st.1 e) ({}, {}) events :=
    fun pre e post heq => ⟨ho pre e post heq, hc pre e post heq⟩
  exact run_induct (J := fun pre st => Books p pre st.1 st.2) books_nil
    (fun pre e h hstep => h.step hstep.1 hstep.2) hboth

/-- Only streams that were opened come into the ledger. -/
theorem openIds_of_mem_streams {events : List ControlEvent} {id : JsString}
    (h : id ∈ (run (auditStep p) ({}, {}) events).2.streams) : id ∈ openIds events := by
  induction events using List.reverseRecOn with
  | nil => exact absurd h (Finset.notMem_empty id)
  | append_singleton events e ih =>
    rw [run_concat] at h
    rcases (Books.mem_streams_note.mp h).1 with h | h
    · exact openIds_subset events [e] (ih h)
    · have hopened := (Finset.mem_filter.mp h).1
      cases e with
      | streamOpen id' target =>
        rw [Finset.mem_singleton.mp hopened, openIds_concat_open]
        exact List.mem_append_right _ (List.mem_singleton_self _)
      | _ => exact absurd hopened (Finset.notMem_empty id)

/-- An open that does not get what it needs makes its stream active, and its handler throws. -/
theorem handleOpen_throws (id : JsString) {target : Option JsString} {t : StreamTarget}
    (ht : parseStreamTarget p target = some t) (hc : ¬ t.Completes p s) :
    (s.handleOpen p id target).1.activeStreams.has id = true ∧
      ∃ err, (s.handleOpen p id target).2 = [.threw err] := by
  have hproxy : target ≠ some (js "proxy-session") := by
    rintro rfl
    rw [parse_proxySession] at ht
    cases ht
  unfold ControlState.handleOpen
  dsimp only
  rw [if_neg hproxy, ht]
  cases t with
  | rawTunnel host port =>
    dsimp only
    rcases herr : p.createConnection host port with err | _
    · exact ⟨OrdMap.has_set_iff.mpr (.inl rfl), err, rfl⟩
    · refine absurd ?_ hc
      show (p.createConnection host port).isOk = true
      rw [herr]
      rfl
  | publicTunnelStream tunnelId initialData =>
    obtain ⟨o, ho, hge⟩ : ∃ o, s.publicTunnelOwners.get? (mapKey s.opens tunnelId) = some o ∧
        ¬ o.nextStreamId < 2 ^ 32 := by
      unfold StreamTarget.Completes at hc
      push Not at hc
      obtain ⟨o, ho, hge⟩ := hc
      exact ⟨o, ho, not_lt.mpr hge⟩
    dsimp only
    unfold ControlState.openPublicStream sendFrame encodePublicTunnelFrame
    dsimp only
    rw [ho]
    dsimp only
    rw [if_neg hge]
    exact ⟨OrdMap.has_set_iff.mpr (.inl rfl), _, rfl⟩
  | publicTunnelOwner tunnelId => exact absurd trivial hc
  | dataPlane => exact absurd trivial hc

/-- Where the accounts are right after an open, it has got what its target needs. -/
theorem openCompletes_of_accounted {st : ControlState × Ledger} {post : List ControlEvent}
    (hnew : ∀ id ∈ e.opened, id ∉ st.2.streams)
    (h : Accounted post (auditStep p st e).1 (auditStep p st e).2) : OpenCompletes p st.1 e := by
  cases e with
  | streamOpen id target =>
    intro t ht
    by_contra hc
    -- the stream is active, and its open is answered with an error
    obtain ⟨hactive, err, hthrows⟩ := handleOpen_throws id ht hc
    have hmem : id ∈ (st.2.note (.streamOpen id target) (st.1.handleOpen p id target).2).streams :=
      (h.exact id).mp hactive
    rcases (Books.mem_streams_note.mp hmem).1 with hmem | hmem
    · exact hnew id (Finset.mem_singleton_self id) hmem
    · have hrefused := (Finset.mem_filter.mp hmem).2 (.threw err) (by rw [hthrows]; exact List.mem_singleton_self _)
      cases hrefused
  | _ => trivial

/-- **The accounts are right after every event of an orderly run** if and only if every open gets what its target
needs. -/
theorem accounted_iff {events : List ControlEvent}
    (ho : Steps (auditStep p) (fun pre _ e => Orderly p pre e) ({}, {}) events) :
    (∀ pre, pre <+: events →
      Accounted pre (run (auditStep p) ({}, {}) pre).1 (run (auditStep p) ({}, {}) pre).2) ↔
      Steps (auditStep p) (fun _ st e => OpenCompletes p st.1 e) ({}, {}) events := by
  constructor
  · intro h pre e post heq
    have hpost := h (pre ++ [e]) ⟨post, by rw [heq]; simp⟩
    rw [run_concat] at hpost
    refine openCompletes_of_accounted (fun id hid hmem => ?_) hpost
    exact (ho pre e post heq).opensOnce id hid (openIds_of_mem_streams hmem)
  · rintro hc pre ⟨post, rfl⟩
    exact (books_run ho.of_append hc.of_append).accounted

/-! ### A run of every kind, and one that is too long -/

theorem audit_fst (st : ControlState × Ledger) (events : List ControlEvent) :
    (run (auditStep p) st events).1 = run (ControlState.step p) st.1 events := by
  induction events generalizing st with
  | nil => rfl
  | cons e events ih => rw [run_cons, run_cons, ih]; rfl

/-- A run of messages with different stream ids is orderly. -/
theorem orderly_messages {st : ControlState × Ledger} {events : List ControlEvent}
    (hm : ∀ e ∈ events, e.isMessage = true) (hd : (openIds events).Nodup) :
    Steps (auditStep p) (fun pre _ e => Orderly p pre e) st events := by
  rintro pre e post rfl
  have he : e.isMessage = true := hm e (by simp)
  constructor
  · intro id hid hpre
    have hpost : id ∈ openIds (e :: post) := by
      cases e with
      | streamOpen id' target =>
        rw [Finset.mem_singleton.mp hid]
        exact mem_openIds.mpr ⟨target, List.mem_cons_self⟩
      | _ => exact absurd hid (Finset.notMem_empty id)
    unfold openIds at hd hpre hpost
    rw [List.filterMap_append] at hd
    exact List.disjoint_of_nodup_append hd hpre hpost
  · intro _ hclosed
    have hc := hm _ (List.mem_append_left _ hclosed)
    cases hc
  · intro id hid
    cases e <;> cases he <;> cases hid
  · intro id hid
    cases e <;> cases he <;> cases hid

namespace Sample

/-- `n` streams of one tunnel, each closed before the next one is opened. -/
def traffic : ℕ → List ControlEvent
  | 0 => [.streamOpen (js "o1") ownerTarget]
  | n + 1 => traffic n ++ [.streamOpen (decText n) streamTarget, .streamClose (decText n)]

theorem traffic_succ (n : ℕ) : traffic (n + 1) =
    (traffic n ++ [.streamOpen (decText n) streamTarget]) ++ [.streamClose (decText n)] := by
  rw [traffic, List.append_assoc]
  rfl

def tunnel : MapKey := .value (.str (js "t"))

theorem decText_ne_owner (n : ℕ) : decText n ≠ js "o1" := by
  intro h
  have hmem : 111 ∈ decText n := by
    rw [h]
    decide
  exact absurd (isDigit_of_mem_decText hmem) (by decide)

theorem parse_streamTarget : parseStreamTarget platform streamTarget =
    some (.publicTunnelStream (.str (js "t")) []) := by decide +kernel

/-- The tunnel is the only one that has an owner. -/
def OnlyOwner (s : ControlState) (next : ℕ) : Prop :=
  ∃ o, s.publicTunnelOwners.entries = [(tunnel, o)] ∧ o.streamId = js "o1" ∧ o.nextStreamId = next

theorem get?_only {m : OrdMap MapKey TunnelOwner} {o : TunnelOwner} (h : m.entries = [(tunnel, o)]) :
    m.get? tunnel = some o := OrdMap.get?_eq_some.mpr (by rw [h]; exact List.mem_singleton_self _)

theorem set_only {m : OrdMap MapKey TunnelOwner} {o o' : TunnelOwner} (h : m.entries = [(tunnel, o)]) :
    (m.set tunnel o').entries = [(tunnel, o')] := by
  have hhas : m.has tunnel = true := by
    unfold OrdMap.has
    rw [get?_only h]
    rfl
  unfold OrdMap.set
  rw [dif_pos hhas]
  change m.entries.map (OrdMap.replace tunnel o') = _
  rw [h]
  rfl

theorem streamTarget_ne : streamTarget ≠ some (js "proxy-session") := by decide +kernel

theorem nextStreamId_link {o : TunnelOwner} {n : ℕ} (h : o.nextStreamId = n) (hn : n < 2 ^ 53)
    (id : JsString) : (o.link id).nextStreamId = n + 1 := by
  unfold TunnelOwner.link increment
  dsimp only
  rw [h, if_pos hn]

theorem handleOpen_linked {s : ControlState} {o : TunnelOwner}
    (h : s.publicTunnelOwners.get? tunnel = some o) (id : JsString) :
    (s.handleOpen platform id streamTarget).1.publicTunnelOwners =
      s.publicTunnelOwners.set tunnel (o.link id) ∧
    (s.handleOpen platform id streamTarget).1.publicTunnelStreams =
      s.publicTunnelStreams.set id ⟨tunnel, o.nextStreamId⟩ := by
  unfold ControlState.handleOpen
  rw [if_neg streamTarget_ne, parse_streamTarget]
  have hopen : ({ s with opens := s.opens + 1 } : ControlState).publicTunnelOwners.get?
      (mapKey s.opens (.str (js "t"))) = some o := h
  dsimp only
  unfold ControlState.openPublicStream
  rw [hopen]
  exact ⟨rfl, rfl⟩

theorem open_linked {s : ControlState} {n : ℕ} (h : OnlyOwner s n) (hn : n < 2 ^ 53) (id : JsString) :
    OnlyOwner (s.handleOpen platform id streamTarget).1 (n + 1) ∧
      (s.handleOpen platform id streamTarget).1.publicTunnelStreams.get? id = some ⟨tunnel, n⟩ := by
  obtain ⟨o, hentries, hid, hnext⟩ := h
  obtain ⟨howners, hlinks⟩ := handleOpen_linked (get?_only hentries) id
  constructor
  · refine ⟨o.link id, ?_, hid, nextStreamId_link hnext hn id⟩
    rw [howners]
    exact set_only hentries
  · rw [hlinks, OrdMap.get?_set_self, hnext]

theorem get?_only_inv {m : OrdMap MapKey TunnelOwner} {o q : TunnelOwner} {T : MapKey}
    (h : m.entries = [(tunnel, o)]) (hT : m.get? T = some q) : T = tunnel ∧ q = o := by
  have hmem := OrdMap.get?_eq_some.mp hT
  rw [h] at hmem
  cases List.mem_singleton.mp hmem
  exact ⟨rfl, rfl⟩

theorem cleanup_linked {s : ControlState} {n : ℕ} (h : OnlyOwner s n) (id : JsString) :
    OnlyOwner (s.cleanupPublicTunnelStream id) n := by
  obtain ⟨o, hentries, hid, hnext⟩ := h
  unfold ControlState.cleanupPublicTunnelStream
  split
  · exact ⟨o, hentries, hid, hnext⟩
  · rename_i link _
    rcases howner : s.publicTunnelOwners.get? link.tunnelId with _ | q
    · exact ⟨o, hentries, hid, hnext⟩
    · obtain ⟨hT, rfl⟩ := get?_only_inv hentries howner
      refine ⟨q.unlink link.ownerStreamId id, ?_, hid, hnext⟩
      dsimp only
      rw [hT]
      exact set_only hentries

theorem close_linked {s : ControlState} {n : ℕ} (h : OnlyOwner s n) {id : JsString} (hid : id ≠ js "o1") :
    OnlyOwner (s.handleClose id).1 n := by
  have hentry : s.ownerEntry? id = none := by
    obtain ⟨o, hentries, ho, -⟩ := h
    unfold ControlState.ownerEntry?
    rw [hentries, List.find?_eq_none]
    intro x hx
    rw [List.mem_singleton.mp hx]
    simpa [ho] using hid.symm
  have hcleanup := cleanup_linked h id
  unfold ControlState.handleClose
  simp only [hentry]
  split
  · split
    · exact hcleanup
    · split
      · exact h
      · exact hcleanup
  · split
    · exact h
    · exact h

theorem traffic_owner {n : ℕ} (hn : n < 2 ^ 53) :
    OnlyOwner (run (ControlState.step platform) {} (traffic n)) (n + 1) := by
  induction n with
  | zero => exact ⟨{ streamId := js "o1" }, by decide +kernel, rfl, rfl⟩
  | succ n ih =>
    have hopen := (open_linked (ih (Nat.lt_of_succ_lt hn)) hn (decText n)).1
    have hclose := close_linked hopen (decText_ne_owner n)
    rw [traffic_succ, run_concat, run_concat]
    exact hclose

theorem openIds_traffic (n : ℕ) : openIds (traffic n) = js "o1" :: (List.range n).map decText := by
  induction n with
  | zero => rfl
  | succ n ih =>
    rw [traffic_succ, List.append_assoc, openIds, List.filterMap_append, ← openIds, ih, List.range_succ,
      List.map_append]
    rfl

theorem orderly_traffic (n : ℕ) :
    Steps (auditStep platform) (fun pre _ e => Orderly platform pre e) ({}, {}) (traffic n) := by
  refine orderly_messages ?_ ?_
  · induction n with
    | zero =>
      intro e he
      obtain rfl := List.mem_singleton.mp he
      rfl
    | succ n ih =>
      intro e he
      rw [traffic_succ] at he
      rcases List.mem_append.mp he with he | he
      · rcases List.mem_append.mp he with he | he
        · exact ih e he
        · obtain rfl := List.mem_singleton.mp he
          rfl
      · obtain rfl := List.mem_singleton.mp he
        rfl
  · rw [openIds_traffic, List.nodup_cons]
    refine ⟨fun h => ?_, List.nodup_range.map decText_injective⟩
    obtain ⟨n, -, h⟩ := List.mem_map.mp h
    exact decText_ne_owner n h

/-- The last stream gets a number that cannot be told to the owner. -/
theorem traffic_not_completes {n : ℕ} (hn : n + 1 = 2 ^ 32) : ¬ OpenCompletes platform
    (run (ControlState.step platform) {} (traffic n)) (.streamOpen (decText n) streamTarget) := by
  have hsmall : n < 2 ^ 53 := by omega
  obtain ⟨o, hentries, -, hnext⟩ := traffic_owner hsmall
  intro h
  have hlt : o.nextStreamId < 2 ^ 32 := h _ parse_streamTarget o (get?_only hentries)
  rw [hnext, hn] at hlt
  exact absurd hlt (lt_irrefl _)

/-- The stream that should get the number `2 ^ 32` is not accepted and stays active. -/
theorem traffic_leaks : ¬ ∀ events : List ControlEvent,
    Steps (auditStep platform) (fun pre _ e => Orderly platform pre e) ({}, {}) events →
      ∀ pre, pre <+: events →
        Accounted pre (run (auditStep platform) ({}, {}) pre).1 (run (auditStep platform) ({}, {}) pre).2 := by
  intro h
  obtain ⟨n, hn⟩ : ∃ n, n + 1 = 2 ^ 32 := ⟨2 ^ 32 - 1, by norm_num⟩
  have horderly := orderly_traffic (n + 1)
  rw [traffic_succ, List.append_assoc] at horderly
  have hright := h _ horderly (traffic n ++ [.streamOpen (decText n) streamTarget]) ⟨_, List.append_assoc _ _ _⟩
  rw [run_concat] at hright
  have hcompletes := openCompletes_of_accounted (fun id hid hmem => ?_) hright
  · rw [audit_fst] at hcompletes
    exact traffic_not_completes hn hcompletes
  · exact (horderly _ _ _ rfl).opensOnce id hid (openIds_of_mem_streams hmem)

def dataPlaneTarget : Option JsString := some (stringify (.obj [(js "kind", .str (js "data-plane"))]))

/-- Streams of every kind, closed by the other side, by their target, by their session, by the owner of
their tunnel, and with the tunnel. -/
def accounts : List ControlEvent :=
  [.streamOpen (js "s1") (some (js "proxy-session")), .streamOpen (js "x1") (some (js "elsewhere")),
    .streamOpen (js "r1") rawTarget, .streamOpen (js "r2") rawTarget, .streamOpen (js "d1") dataPlaneTarget,
    .streamOpen (js "p1") streamTarget, .streamOpen (js "o1") ownerTarget, .streamOpen (js "p2") streamTarget,
    .streamOpen (js "p3") streamTarget, .socketError (js "r1") (js "reset"), .socketClosed (js "r1"),
    .streamData (js "o1") (base64 [3, 0, 0, 0, 1]), .dataPlaneDone (js "d1"), .streamClose (js "p3"),
    .streamClose (js "o1"), .streamClose (js "s1"), .connectionClosed, .socketClosed (js "r2")]

theorem accounts_right :
    Accounted (accounts.take 9) (run (auditStep platform) ({}, {}) (accounts.take 9)).1
      (run (auditStep platform) ({}, {}) (accounts.take 9)).2 ∧
    Accounted accounts (run (auditStep platform) ({}, {}) accounts).1
      (run (auditStep platform) ({}, {}) accounts).2 := by
  have horderly : Steps (auditStep platform) (fun pre _ e => Orderly platform pre e) ({}, {}) accounts := by
    decide +kernel
  have hall := (accounted_iff horderly).mpr (by decide +kernel)
  exact ⟨hall _ (List.take_prefix 9 accounts), hall _ List.prefix_rfl⟩

end Sample

end ConsensusNode.Clients
