import ConsensusNode.Clients.ControlStreams

/-! # Isolation of the clients of a public tunnel

* `reroutes`: the six things a step can do to the owners and the links.
* `Routed`: the links and the two maps of every owner are one relation, every entry of it was made when
  its stream was opened, and the numbers of one owner stream are never given twice.
* `routing_isolated`: in a run without repeated stream ids in which no owner stream takes over a tunnel
  that still has linked streams, the streams of a tunnel have different numbers, and no byte of one
  client reaches the stream of another one.

An owner stream that takes over a tunnel with linked streams starts its numbers at one again, while the
links of the streams that are still open stay. -/

namespace ConsensusNode.Clients

open Js Lib.Run

/-! ### Frames -/

theorem decode_encodePublicTunnelFrame {type : PublicTunnelFrame} {k : ℕ} {payload frame : Bytes}
    (h : encodePublicTunnelFrame type k payload = .ok frame) :
    decodePublicTunnelFrame frame = .ok ⟨type.code, k, payload⟩ := by
  unfold encodePublicTunnelFrame at h
  split at h
  · rename_i hk
    have hframe := Except.ok.inj h
    have hval : beVal (beBytes 4 k) = k := beVal_beBytes_of_lt (lt_of_lt_of_eq hk (by norm_num))
    rw [← hframe]
    exact congrArg (fun n => Except.ok (DecodedFrame.mk type.code n payload)) hval
  · cases h

theorem encodePublicTunnelFrame_inj {type type' : PublicTunnelFrame} {k k' : ℕ} {b b' frame : Bytes}
    (h : encodePublicTunnelFrame type k b = .ok frame)
    (h' : encodePublicTunnelFrame type' k' b' = .ok frame) : k = k' := by
  have hd := decode_encodePublicTunnelFrame h
  rw [decode_encodePublicTunnelFrame h'] at hd
  exact congrArg DecodedFrame.streamId (Except.ok.inj hd.symm)

/-! ### What a step does to the routes -/

section Steps

variable (p : Platform)

/-- The event opens the stream `sid` as number `k` of the owner stream `O`. -/
def OpensOn (s : ControlState) (e : ControlEvent) (O : JsString) (k : ℕ) (sid : JsString) : Prop :=
  ∃ target t init o, e = .streamOpen sid target ∧
    parseStreamTarget p target = some (.publicTunnelStream t init) ∧
    s.publicTunnelOwners.get? (mapKey s.opens t) = some o ∧ o.streamId = O ∧ o.nextStreamId = k

/-- `sid` was opened as number `k` of the owner stream `O`. -/
def OpenedOn (pre : List ControlEvent) (O : JsString) (k : ℕ) (sid : JsString) : Prop :=
  ∃ a e b, pre = a ++ e :: b ∧
    OpensOn p (run (ControlState.step p) {} a) e O k sid

/-- The owner after `cleanupPublicTunnelStream`. -/
def TunnelOwner.unlink (o : TunnelOwner) (k : ℕ) (sid : JsString) : TunnelOwner :=
  { o with ownerToServer := o.ownerToServer.delete k, serverToOwner := o.serverToOwner.delete sid }

/-- The owner after a stream has been opened. -/
def TunnelOwner.link (o : TunnelOwner) (sid : JsString) : TunnelOwner :=
  { o with
    nextStreamId := increment o.nextStreamId
    ownerToServer := o.ownerToServer.set o.nextStreamId sid
    serverToOwner := o.serverToOwner.set sid o.nextStreamId }

/-- **What a step can do** to the owners and the links. -/
inductive Reroutes (s : ControlState) (e : ControlEvent) :
    OrdMap MapKey TunnelOwner → OrdMap JsString TunnelLink → Prop where
  | same (h : ∀ O k sid, ¬ OpensOn p s e O k sid) :
      Reroutes s e s.publicTunnelOwners s.publicTunnelStreams
  | owner (id : JsString) (target : Option JsString) (t : Json) (he : e = .streamOpen id target)
      (ht : parseStreamTarget p target = some (.publicTunnelOwner t)) :
      Reroutes s e (s.publicTunnelOwners.set (mapKey s.opens t) { streamId := id })
        s.publicTunnelStreams
  | stream (id : JsString) (target : Option JsString) (t : Json) (init : Bytes) (o : TunnelOwner)
      (he : e = .streamOpen id target)
      (ht : parseStreamTarget p target = some (.publicTunnelStream t init))
      (ho : s.publicTunnelOwners.get? (mapKey s.opens t) = some o) :
      Reroutes s e (s.publicTunnelOwners.set (mapKey s.opens t) (o.link id))
        (s.publicTunnelStreams.set id ⟨mapKey s.opens t, o.nextStreamId⟩)
  | cleanup (he : ∀ id target, e ≠ .streamOpen id target) (sid : JsString) (l : TunnelLink)
      (o : TunnelOwner) (hl : s.publicTunnelStreams.get? sid = some l)
      (ho : s.publicTunnelOwners.get? l.tunnelId = some o) :
      Reroutes s e (s.publicTunnelOwners.set l.tunnelId (o.unlink l.ownerStreamId sid))
        (s.publicTunnelStreams.delete sid)
  | orphan (he : ∀ id target, e ≠ .streamOpen id target) (sid : JsString) (l : TunnelLink)
      (hl : s.publicTunnelStreams.get? sid = some l)
      (ho : s.publicTunnelOwners.get? l.tunnelId = none) :
      Reroutes s e s.publicTunnelOwners (s.publicTunnelStreams.delete sid)
  | ownerClose (he : ∀ id target, e ≠ .streamOpen id target) (T : MapKey) (o : TunnelOwner)
      (ho : s.publicTunnelOwners.get? T = some o) :
      Reroutes s e (s.publicTunnelOwners.delete T)
        (s.publicTunnelStreams.filter fun x => !o.serverToOwner.keys.contains x.1)
  | clear (he : ∀ id target, e ≠ .streamOpen id target) : Reroutes s e ∅ ∅

variable {p} {s : ControlState} {e : ControlEvent}

theorem OpensOn.isOpen {O sid : JsString} {k : ℕ} (h : OpensOn p s e O k sid) :
    ∃ target, e = .streamOpen sid target := by
  obtain ⟨target, t, init, o, he, -⟩ := h
  exact ⟨target, he⟩

theorem Reroutes.of_eq {s' : ControlState} (he : ∀ id target, e ≠ .streamOpen id target)
    (ho : s'.publicTunnelOwners = s.publicTunnelOwners)
    (hl : s'.publicTunnelStreams = s.publicTunnelStreams) :
    Reroutes p s e s'.publicTunnelOwners s'.publicTunnelStreams := by
  rw [ho, hl]
  refine .same fun O k sid h => ?_
  obtain ⟨target, hopen⟩ := h.isOpen
  exact he _ _ hopen

theorem reroutes_cleanup (he : ∀ id target, e ≠ .streamOpen id target) (sid : JsString) :
    Reroutes p s e (s.cleanupPublicTunnelStream sid).publicTunnelOwners
      (s.cleanupPublicTunnelStream sid).publicTunnelStreams := by
  unfold ControlState.cleanupPublicTunnelStream
  split
  · exact .of_eq he rfl rfl
  · rename_i l hl
    dsimp only
    split
    · rename_i ho
      exact .orphan he sid l hl ho
    · rename_i o ho
      exact .cleanup he sid l o hl ho

theorem reroutes_ownerFrame (he : ∀ id target, e ≠ .streamOpen id target) (o : TunnelOwner)
    (frame : DecodedFrame) :
    Reroutes p s e (s.handleOwnerFrame o frame).1.publicTunnelOwners
      (s.handleOwnerFrame o frame).1.publicTunnelStreams := by
  unfold ControlState.handleOwnerFrame
  split
  · exact .of_eq he rfl rfl
  split
  · exact .of_eq he rfl rfl
  split
  · exact .of_eq he rfl rfl
  · exact .of_eq he rfl rfl
  · split
    · exact .of_eq he rfl rfl
    split
    · exact reroutes_cleanup he _
    split
    · exact reroutes_cleanup he _
    · exact .of_eq he rfl rfl

theorem parse_proxySession : parseStreamTarget p (some (js "proxy-session")) = none := by
  have h : parse (js "proxy-session") = none := by decide +kernel
  unfold parseStreamTarget
  show (parse (js "proxy-session")).bind (streamTargetOf p) = none
  rw [h]
  rfl

theorem reroutes_open (id : JsString) (target : Option JsString) :
    Reroutes p s (.streamOpen id target) (s.handleOpen p id target).1.publicTunnelOwners
      (s.handleOpen p id target).1.publicTunnelStreams := by
  have same : ∀ {s' : ControlState}, s'.publicTunnelOwners = s.publicTunnelOwners →
      s'.publicTunnelStreams = s.publicTunnelStreams →
      (∀ t init o, parseStreamTarget p target = some (.publicTunnelStream t init) →
        s.publicTunnelOwners.get? (mapKey s.opens t) ≠ some o) →
      Reroutes p s (.streamOpen id target) s'.publicTunnelOwners s'.publicTunnelStreams := by
    intro s' ho hl hne
    rw [ho, hl]
    refine .same fun O k sid h => ?_
    obtain ⟨target', t, init, o, heq, ht, hget, -⟩ := h
    cases heq
    exact hne t init o ht hget
  unfold ControlState.handleOpen
  dsimp only
  split
  · rename_i hproxy
    refine same rfl rfl fun t init o ht => ?_
    rw [hproxy, parse_proxySession] at ht
    cases ht
  · split
    · rename_i t ht
      exact .owner id target t rfl ht
    · rename_i t init ht
      unfold ControlState.openPublicStream
      split
      · rename_i hnone
        refine same rfl rfl fun t' init' o ht' => ?_
        rw [ht] at ht'
        cases ht'
        have hnone' : s.publicTunnelOwners.get? (mapKey s.opens t) = none := hnone
        rw [hnone']
        exact fun h => by cases h
      · rename_i o ho
        exact .stream id target t init o rfl ht ho
    · rename_i ht
      exact same rfl rfl fun t init o ht' => by rw [ht] at ht'; cases ht'
    · rename_i ht
      exact same rfl rfl fun t init o ht' => by rw [ht] at ht'; cases ht'
    · rename_i ht
      split
      · exact same rfl rfl fun t init o ht' => by rw [ht] at ht'; cases ht'
      · exact same rfl rfl fun t init o ht' => by rw [ht] at ht'; cases ht'

theorem ownerEntry?_spec {id : JsString} {T : MapKey} {o : TunnelOwner}
    (h : s.ownerEntry? id = some (T, o)) : s.publicTunnelOwners.get? T = some o ∧ o.streamId = id := by
  have hid := List.find?_some h
  have hmem := List.mem_of_find?_eq_some h
  exact ⟨OrdMap.get?_eq_some.mpr hmem, by simpa using hid⟩

theorem reroutes_data (id data : JsString) :
    Reroutes p s (.streamData id data) (s.handleData id data).1.publicTunnelOwners
      (s.handleData id data).1.publicTunnelStreams := by
  have he : ∀ id' target, ControlEvent.streamData id data ≠ .streamOpen id' target := by
    intro id' target h
    cases h
  unfold ControlState.handleData
  split
  · split
    · exact reroutes_ownerFrame he _ _
    · exact .of_eq he rfl rfl
  · split
    · split
      · exact reroutes_cleanup he _
      · exact .of_eq he rfl rfl
    · split
      · exact .of_eq he rfl rfl
      split
      · exact .of_eq he rfl rfl
      · exact .of_eq he rfl rfl

theorem reroutes_close (id : JsString) :
    Reroutes p s (.streamClose id) (s.handleClose id).1.publicTunnelOwners
      (s.handleClose id).1.publicTunnelStreams := by
  have he : ∀ id' target, ControlEvent.streamClose id ≠ .streamOpen id' target := by
    intro id' target h
    cases h
  unfold ControlState.handleClose
  split
  · rename_i T o hentry
    exact .ownerClose he T o (ownerEntry?_spec hentry).1
  · split
    · split
      · exact reroutes_cleanup he _
      · split
        · exact .of_eq he rfl rfl
        · exact reroutes_cleanup he _
    · split
      · exact .of_eq he rfl rfl
      · exact .of_eq he rfl rfl

theorem reroutes (s : ControlState) (e : ControlEvent) :
    Reroutes p s e (s.step p e).publicTunnelOwners (s.step p e).publicTunnelStreams := by
  unfold ControlState.step ControlState.handle
  cases e with
  | streamOpen id target => exact reroutes_open id target
  | streamData id data => exact reroutes_data id data
  | streamClose id => exact reroutes_close id
  | socketClosed id =>
    dsimp only
    split
    · exact .of_eq (fun _ _ h => by cases h) rfl rfl
    · exact .of_eq (fun _ _ h => by cases h) rfl rfl
  | connectionClosed => exact .clear fun _ _ h => by cases h
  | _ => exact .of_eq (fun _ _ h => by cases h) rfl rfl

end Steps

/-! ### The invariant -/

variable {p : Platform}

@[simp] theorem openIds_concat_open (pre : List ControlEvent) (id : JsString) (target : Option JsString) :
    openIds (pre ++ [.streamOpen id target]) = openIds pre ++ [id] := by
  simp [openIds]

theorem openIds_subset (pre post : List ControlEvent) : openIds pre ⊆ openIds (pre ++ post) := by
  intro id h
  unfold openIds at *
  rw [List.filterMap_append]
  exact List.mem_append_left _ h

theorem openedOn_concat {pre : List ControlEvent} {e : ControlEvent} {O sid : JsString} {k : ℕ} :
    OpenedOn p (pre ++ [e]) O k sid ↔
      OpenedOn p pre O k sid ∨ OpensOn p (run (ControlState.step p) {} pre) e O k sid := by
  constructor
  · rintro ⟨a, e', b, heq, h⟩
    rcases List.eq_nil_or_concat b with rfl | ⟨b, x, rfl⟩
    · obtain ⟨rfl, he⟩ := List.append_inj' heq rfl
      cases he
      exact .inr h
    · refine .inl ⟨a, e', b, ?_, h⟩
      rw [List.concat_eq_append, ← List.cons_append, ← List.append_assoc] at heq
      exact (List.append_inj' heq rfl).1
  · rintro (⟨a, e', b, rfl, h⟩ | h)
    · exact ⟨a, e', b ++ [e], by simp, h⟩
    · exact ⟨pre, e, [], rfl, h⟩

/-- **The routes after the events `pre`.** -/
structure Routed (p : Platform) (pre : List ControlEvent) (owners : OrdMap MapKey TunnelOwner)
    (links : OrdMap JsString TunnelLink) : Prop where
  link : ∀ {sid l}, links.get? sid = some l → ∃ o, owners.get? l.tunnelId = some o ∧
    o.ownerToServer.get? l.ownerStreamId = some sid ∧ o.serverToOwner.get? sid = some l.ownerStreamId
  slot : ∀ {T o k sid}, owners.get? T = some o → o.ownerToServer.get? k = some sid →
    links.get? sid = some ⟨T, k⟩
  back : ∀ {T o k sid}, owners.get? T = some o → o.serverToOwner.get? sid = some k →
    links.get? sid = some ⟨T, k⟩
  /-- An entry was made when its stream was opened. -/
  made : ∀ {T o k sid}, owners.get? T = some o → o.ownerToServer.get? k = some sid →
    OpenedOn p pre o.streamId k sid
  /-- The next number is above all numbers of the owner stream. -/
  below : ∀ {T o k sid}, owners.get? T = some o → OpenedOn p pre o.streamId k sid → k < o.nextStreamId
  ownerIds : ∀ {T o}, owners.get? T = some o → o.streamId ∈ openIds pre
  ownerInj : ∀ {T T' o o'}, owners.get? T = some o → owners.get? T' = some o' →
    o.streamId = o'.streamId → T = T'
  linkIds : ∀ {sid l}, links.get? sid = some l → sid ∈ openIds pre
  apart : ∀ {T o}, owners.get? T = some o → links.get? o.streamId = none
  openedIds : ∀ {O k sid}, OpenedOn p pre O k sid → O ∈ openIds pre
  unique : ∀ {O k sid sid'}, OpenedOn p pre O k sid → OpenedOn p pre O k sid' → sid = sid'

theorem routed_nil : Routed p [] ∅ ∅ := by
  have hopened : ∀ {O k sid}, ¬ OpenedOn p [] O k sid := by
    rintro O k sid ⟨a, e, b, h, -⟩
    simp at h
  constructor
  case openedIds => exact fun h => absurd h hopened
  case unique => exact fun h => absurd h hopened
  all_goals
    intros
    simp_all [EmptyCollection.emptyCollection]

namespace Routed

variable {pre : List ControlEvent} {owners : OrdMap MapKey TunnelOwner}
  {links : OrdMap JsString TunnelLink}

/-- Two linked streams of one tunnel have different numbers. -/
theorem link_inj (h : Routed p pre owners links) {sid sid' : JsString} {l : TunnelLink}
    (h1 : links.get? sid = some l) (h2 : links.get? sid' = some l) : sid = sid' := by
  obtain ⟨o, ho, hs, -⟩ := h.link h1
  obtain ⟨o', ho', hs', -⟩ := h.link h2
  rw [ho] at ho'
  cases ho'
  rw [hs] at hs'
  exact Option.some.inj hs'

/-- An event that opens no stream changes nothing in the history. -/
theorem later (h : Routed p pre owners links) {e : ControlEvent}
    (he : ∀ O k sid, ¬ OpensOn p (run (ControlState.step p) {} pre) e O k sid) :
    Routed p (pre ++ [e]) owners links := by
  have hiff : ∀ {O k sid}, OpenedOn p (pre ++ [e]) O k sid ↔ OpenedOn p pre O k sid := by
    intro O k sid
    rw [openedOn_concat]
    exact or_iff_left (he O k sid)
  have hsub := openIds_subset pre [e]
  exact {
    link := h.link
    slot := h.slot
    back := h.back
    made := fun ho hs => hiff.mpr (h.made ho hs)
    below := fun ho hop => h.below ho (hiff.mp hop)
    ownerIds := fun ho => hsub (h.ownerIds ho)
    ownerInj := h.ownerInj
    linkIds := fun hl => hsub (h.linkIds hl)
    apart := h.apart
    openedIds := fun hop => hsub (h.openedIds (hiff.mp hop))
    unique := fun h1 h2 => h.unique (hiff.mp h1) (hiff.mp h2) }

/-- A new owner stream for a tunnel without linked streams. -/
theorem setOwner (h : Routed p pre owners links) {T : MapKey} {id : JsString}
    (hid : id ∈ openIds pre) (hnew : ∀ T' o, owners.get? T' = some o → o.streamId ≠ id)
    (hopen : ∀ k sid, ¬ OpenedOn p pre id k sid) (hlink : links.get? id = none)
    (hfree : ∀ sid l, links.get? sid = some l → l.tunnelId ≠ T) :
    Routed p pre (owners.set T { streamId := id }) links := by
  have cases' : ∀ {T' o}, (owners.set T { streamId := id }).get? T' = some o →
      (T' = T ∧ o = { streamId := id }) ∨ (T' ≠ T ∧ owners.get? T' = some o) := by
    intro T' o ho
    rw [OrdMap.get?_set] at ho
    split at ho
    · rename_i hT
      exact .inl ⟨hT, (Option.some.inj ho).symm⟩
    · rename_i hT
      exact .inr ⟨hT, ho⟩
  exact {
    link := by
      intro sid l hl
      obtain ⟨o, ho, hs⟩ := h.link hl
      exact ⟨o, by rw [OrdMap.get?_set_ne _ _ (hfree sid l hl)]; exact ho, hs⟩
    slot := by
      intro T' o k sid ho hs
      rcases cases' ho with ⟨-, rfl⟩ | ⟨-, ho⟩
      · cases hs
      · exact h.slot ho hs
    back := by
      intro T' o k sid ho hs
      rcases cases' ho with ⟨-, rfl⟩ | ⟨-, ho⟩
      · cases hs
      · exact h.back ho hs
    made := by
      intro T' o k sid ho hs
      rcases cases' ho with ⟨-, rfl⟩ | ⟨-, ho⟩
      · cases hs
      · exact h.made ho hs
    below := by
      intro T' o k sid ho hop
      rcases cases' ho with ⟨-, rfl⟩ | ⟨-, ho⟩
      · exact absurd hop (hopen k sid)
      · exact h.below ho hop
    ownerIds := by
      intro T' o ho
      rcases cases' ho with ⟨-, rfl⟩ | ⟨-, ho⟩
      · exact hid
      · exact h.ownerIds ho
    ownerInj := by
      intro T₁ T₂ o₁ o₂ h₁ h₂ heq
      rcases cases' h₁ with ⟨e₁, r₁⟩ | ⟨-, g₁⟩
      · rcases cases' h₂ with ⟨e₂, r₂⟩ | ⟨-, g₂⟩
        · rw [e₁, e₂]
        · exact absurd (heq.symm.trans (congrArg TunnelOwner.streamId r₁)) (hnew _ _ g₂)
      · rcases cases' h₂ with ⟨e₂, r₂⟩ | ⟨-, g₂⟩
        · exact absurd (heq.trans (congrArg TunnelOwner.streamId r₂)) (hnew _ _ g₁)
        · exact h.ownerInj g₁ g₂ heq
    linkIds := h.linkIds
    apart := by
      intro T' o ho
      rcases cases' ho with ⟨-, rfl⟩ | ⟨-, ho⟩
      · exact hlink
      · exact h.apart ho
    openedIds := h.openedIds
    unique := h.unique }

/-- A stream opened as the next number of its owner. -/
theorem setStream (h : Routed p pre owners links) {e : ControlEvent} {T : MapKey} {id : JsString}
    {o : TunnelOwner} (ho : owners.get? T = some o) (hnext : o.nextStreamId < 2 ^ 53)
    (hiff : ∀ {O k sid}, OpenedOn p (pre ++ [e]) O k sid ↔
      OpenedOn p pre O k sid ∨ (O = o.streamId ∧ k = o.nextStreamId ∧ sid = id))
    (hid : id ∈ openIds (pre ++ [e])) (hnew : links.get? id = none)
    (hown : ∀ T' o', owners.get? T' = some o' → o'.streamId ≠ id) :
    Routed p (pre ++ [e]) (owners.set T (o.link id)) (links.set id ⟨T, o.nextStreamId⟩) := by
  have hsub := openIds_subset pre [e]
  have hinc : increment o.nextStreamId = o.nextStreamId + 1 := by
    unfold increment
    rw [if_pos hnext]
  have hlt : ∀ {k sid}, o.ownerToServer.get? k = some sid → k < o.nextStreamId :=
    fun hs => h.below ho (h.made ho hs)
  have owner' : ∀ {T' o'}, (owners.set T (o.link id)).get? T' = some o' →
      (T' = T ∧ o' = o.link id) ∨ (T' ≠ T ∧ owners.get? T' = some o') := by
    intro T' o' h'
    rw [OrdMap.get?_set] at h'
    split at h'
    · rename_i hT
      exact .inl ⟨hT, (Option.some.inj h').symm⟩
    · rename_i hT
      exact .inr ⟨hT, h'⟩
  have keep : ∀ {sid l}, links.get? sid = some l →
      (links.set id ⟨T, o.nextStreamId⟩).get? sid = some l := by
    intro sid l hl
    rw [OrdMap.get?_set_ne _ _ (by rintro rfl; rw [hnew] at hl; cases hl)]
    exact hl
  exact {
    link := by
      intro sid l hl
      rw [OrdMap.get?_set] at hl
      split at hl
      · rename_i hsid
        cases hl
        subst hsid
        exact ⟨o.link sid, OrdMap.get?_set_self .., OrdMap.get?_set_self .., OrdMap.get?_set_self ..⟩
      · rename_i hsid
        obtain ⟨o₁, ho₁, hs₁, hb₁⟩ := h.link hl
        by_cases hT : l.tunnelId = T
        · rw [hT, ho] at ho₁
          cases ho₁
          have hk : l.ownerStreamId ≠ o.nextStreamId := (hlt hs₁).ne
          refine ⟨o.link id, by rw [hT]; exact OrdMap.get?_set_self .., ?_, ?_⟩
          · exact (OrdMap.get?_set_ne _ _ hk).trans hs₁
          · exact (OrdMap.get?_set_ne _ _ hsid).trans hb₁
        · exact ⟨o₁, by rw [OrdMap.get?_set_ne _ _ hT]; exact ho₁, hs₁, hb₁⟩
    slot := by
      intro T' o' k sid ho' hs
      rcases owner' ho' with ⟨rfl, rfl⟩ | ⟨-, ho'⟩
      · unfold TunnelOwner.link at hs
        rw [OrdMap.get?_set] at hs
        split at hs
        · rename_i hk
          cases hs
          rw [hk]
          exact OrdMap.get?_set_self ..
        · exact keep (h.slot ho hs)
      · exact keep (h.slot ho' hs)
    back := by
      intro T' o' k sid ho' hs
      rcases owner' ho' with ⟨rfl, rfl⟩ | ⟨-, ho'⟩
      · unfold TunnelOwner.link at hs
        rw [OrdMap.get?_set] at hs
        split at hs
        · rename_i hsid
          cases hs
          rw [hsid]
          exact OrdMap.get?_set_self ..
        · exact keep (h.back ho hs)
      · exact keep (h.back ho' hs)
    made := by
      intro T' o' k sid ho' hs
      rcases owner' ho' with ⟨rfl, rfl⟩ | ⟨-, ho'⟩
      · unfold TunnelOwner.link at hs
        rw [OrdMap.get?_set] at hs
        split at hs
        · rename_i hk
          cases hs
          exact hiff.mpr (.inr ⟨rfl, hk, rfl⟩)
        · have hmade : OpenedOn p pre o.streamId k sid := h.made ho hs
          exact hiff.mpr (.inl hmade)
      · exact hiff.mpr (.inl (h.made ho' hs))
    below := by
      intro T' o' k sid ho' hop
      rcases owner' ho' with ⟨rfl, rfl⟩ | ⟨hT, ho'⟩
      · show k < increment o.nextStreamId
        rw [hinc]
        rcases hiff.mp hop with hop | ⟨-, hk, -⟩
        · have := h.below ho hop
          omega
        · omega
      · rcases hiff.mp hop with hop | ⟨hO, -, -⟩
        · exact h.below ho' hop
        · exact absurd (h.ownerInj ho' ho hO) hT
    ownerIds := by
      intro T' o' ho'
      rcases owner' ho' with ⟨rfl, rfl⟩ | ⟨-, ho'⟩
      · have hold : o.streamId ∈ openIds pre := h.ownerIds ho
        exact hsub hold
      · exact hsub (h.ownerIds ho')
    ownerInj := by
      intro T₁ T₂ o₁ o₂ h₁ h₂ heq
      have old : ∀ {T' o'}, (owners.set T (o.link id)).get? T' = some o' →
          ∃ o'', owners.get? T' = some o'' ∧ o''.streamId = o'.streamId := by
        intro T' o' h'
        rcases owner' h' with ⟨rfl, rfl⟩ | ⟨-, h'⟩
        · exact ⟨o, ho, rfl⟩
        · exact ⟨o', h', rfl⟩
      obtain ⟨o₁', g₁, e₁⟩ := old h₁
      obtain ⟨o₂', g₂, e₂⟩ := old h₂
      exact h.ownerInj g₁ g₂ (by rw [e₁, e₂, heq])
    linkIds := by
      intro sid l hl
      rw [OrdMap.get?_set] at hl
      split at hl
      · rename_i hsid
        rw [hsid]
        exact hid
      · exact hsub (h.linkIds hl)
    apart := by
      intro T' o' ho'
      rcases owner' ho' with ⟨rfl, rfl⟩ | ⟨-, ho'⟩
      · have hold : (links.set id ⟨T', o.nextStreamId⟩).get? o.streamId = none := by
          rw [OrdMap.get?_set_ne _ _ (hown _ _ ho)]
          exact h.apart ho
        exact hold
      · rw [OrdMap.get?_set_ne _ _ (hown _ _ ho')]
        exact h.apart ho'
    openedIds := by
      intro O k sid hop
      rcases hiff.mp hop with hop | ⟨rfl, -, -⟩
      · exact hsub (h.openedIds hop)
      · exact hsub (h.ownerIds ho)
    unique := by
      intro O k sid sid' h₁ h₂
      rcases hiff.mp h₁ with g₁ | ⟨e₁, k₁, s₁⟩
      · rcases hiff.mp h₂ with g₂ | ⟨e₂, k₂, s₂⟩
        · exact h.unique g₁ g₂
        · have := h.below ho (e₂ ▸ g₁)
          omega
      · rcases hiff.mp h₂ with g₂ | ⟨e₂, k₂, s₂⟩
        · have := h.below ho (e₁ ▸ g₂)
          omega
        · rw [s₁, s₂] }

/-- Removing entries consistently from all the maps. -/
theorem shrink (h : Routed p pre owners links) {owners' : OrdMap MapKey TunnelOwner}
    {links' : OrdMap JsString TunnelLink}
    (howner : ∀ {T o'}, owners'.get? T = some o' → ∃ o, owners.get? T = some o ∧
      o'.streamId = o.streamId ∧ o'.nextStreamId = o.nextStreamId ∧
      (∀ {k sid}, o'.ownerToServer.get? k = some sid → o.ownerToServer.get? k = some sid ∧
        (links.get? sid = some ⟨T, k⟩ → links'.get? sid = some ⟨T, k⟩)) ∧
      (∀ {k sid}, o'.serverToOwner.get? sid = some k → o.serverToOwner.get? sid = some k ∧
        (links.get? sid = some ⟨T, k⟩ → links'.get? sid = some ⟨T, k⟩)))
    (hlink : ∀ {sid l}, links'.get? sid = some l → links.get? sid = some l ∧
      ∀ o, owners.get? l.tunnelId = some o → o.ownerToServer.get? l.ownerStreamId = some sid →
        o.serverToOwner.get? sid = some l.ownerStreamId →
        ∃ o', owners'.get? l.tunnelId = some o' ∧ o'.ownerToServer.get? l.ownerStreamId = some sid ∧
          o'.serverToOwner.get? sid = some l.ownerStreamId) :
    Routed p pre owners' links' where
  link := by
    intro sid l hl
    obtain ⟨hl, hkeep⟩ := hlink hl
    obtain ⟨o, ho, hs, hb⟩ := h.link hl
    exact hkeep o ho hs hb
  slot := by
    intro T o' k sid ho' hs
    obtain ⟨o, ho, -, -, hslot, -⟩ := howner ho'
    obtain ⟨hs, hkeep⟩ := hslot hs
    exact hkeep (h.slot ho hs)
  back := by
    intro T o' k sid ho' hs
    obtain ⟨o, ho, -, -, -, hback⟩ := howner ho'
    obtain ⟨hs, hkeep⟩ := hback hs
    exact hkeep (h.back ho hs)
  made := by
    intro T o' k sid ho' hs
    obtain ⟨o, ho, hid, -, hslot, -⟩ := howner ho'
    rw [hid]
    exact h.made ho (hslot hs).1
  below := by
    intro T o' k sid ho' hop
    obtain ⟨o, ho, hid, hnext, -⟩ := howner ho'
    rw [hnext]
    exact h.below ho (hid ▸ hop)
  ownerIds := by
    intro T o' ho'
    obtain ⟨o, ho, hid, -⟩ := howner ho'
    rw [hid]
    exact h.ownerIds ho
  ownerInj := by
    intro T₁ T₂ o₁ o₂ h₁ h₂ heq
    obtain ⟨o₁', g₁, e₁, -⟩ := howner h₁
    obtain ⟨o₂', g₂, e₂, -⟩ := howner h₂
    exact h.ownerInj g₁ g₂ (by rw [← e₁, ← e₂, heq])
  linkIds := fun hl => h.linkIds (hlink hl).1
  apart := by
    intro T o' ho'
    obtain ⟨o, ho, hid, -⟩ := howner ho'
    rw [Option.eq_none_iff_forall_ne_some]
    intro l hl
    have hnone := h.apart ho
    rw [← hid, (hlink hl).1] at hnone
    cases hnone
  openedIds := h.openedIds
  unique := h.unique

/-- `cleanupPublicTunnelStream` of a linked stream. -/
theorem unlink (h : Routed p pre owners links) {sid : JsString} {l : TunnelLink} {o : TunnelOwner}
    (hl : links.get? sid = some l) (ho : owners.get? l.tunnelId = some o) :
    Routed p pre (owners.set l.tunnelId (o.unlink l.ownerStreamId sid)) (links.delete sid) := by
  have keep : ∀ {sid' l'}, sid' ≠ sid → links.get? sid' = some l' →
      (links.delete sid).get? sid' = some l' := by
    intro sid' l' hne hl'
    rw [OrdMap.get?_delete_ne _ hne]
    exact hl'
  refine h.shrink ?_ ?_
  · intro T o' ho'
    rw [OrdMap.get?_set] at ho'
    split at ho'
    · rename_i hT
      cases ho'
      subst hT
      refine ⟨o, ho, rfl, rfl, ?_, ?_⟩
      · intro k sid' hs
        unfold TunnelOwner.unlink at hs
        rw [OrdMap.get?_delete] at hs
        split at hs
        · cases hs
        · rename_i hk
          refine ⟨hs, fun hl' => keep ?_ hl'⟩
          rintro rfl
          rw [hl] at hl'
          exact hk (congrArg TunnelLink.ownerStreamId (Option.some.inj hl')).symm
      · intro k sid' hs
        unfold TunnelOwner.unlink at hs
        rw [OrdMap.get?_delete] at hs
        split at hs
        · cases hs
        · rename_i hsid
          exact ⟨hs, keep hsid⟩
    · rename_i hT
      refine ⟨o', ho', rfl, rfl, fun {k sid'} hs => ⟨hs, fun hl' => keep ?_ hl'⟩,
        fun {k sid'} hs => ⟨hs, fun hl' => keep ?_ hl'⟩⟩ <;>
      · rintro rfl
        rw [hl] at hl'
        exact hT (congrArg TunnelLink.tunnelId (Option.some.inj hl')).symm
  · intro sid' l' hl'
    rw [OrdMap.get?_delete] at hl'
    split at hl'
    · cases hl'
    · rename_i hsid
      refine ⟨hl', fun o' ho' hs hb => ?_⟩
      by_cases hT : l'.tunnelId = l.tunnelId
      · rw [hT, ho] at ho'
        cases ho'
        have hk : l'.ownerStreamId ≠ l.ownerStreamId := by
          intro hk
          have heq : l' = l := by
            rcases l with ⟨T, k⟩
            rcases l' with ⟨T', k'⟩
            exact congrArg₂ TunnelLink.mk hT hk
          exact hsid (h.link_inj (heq ▸ hl') hl)
        refine ⟨o.unlink l.ownerStreamId sid, by rw [hT]; exact OrdMap.get?_set_self .., ?_, ?_⟩
        · exact (OrdMap.get?_delete_ne _ hk).trans hs
        · exact (OrdMap.get?_delete_ne _ hsid).trans hb
      · exact ⟨o', by rw [OrdMap.get?_set_ne _ _ hT]; exact ho', hs, hb⟩

/-- The close of an owner stream. -/
theorem closeOwner (h : Routed p pre owners links) {T : MapKey} {o : TunnelOwner}
    (ho : owners.get? T = some o) :
    Routed p pre (owners.delete T) (links.filter fun x => !o.serverToOwner.keys.contains x.1) := by
  -- the streams in the owner's map are exactly the streams linked to its tunnel
  have hmem : ∀ {sid l}, links.get? sid = some l →
      (o.serverToOwner.keys.contains sid = true ↔ l.tunnelId = T) := by
    intro sid l hl
    rw [List.contains_iff_mem, OrdMap.mem_keys_iff]
    constructor
    · rintro ⟨k, hk⟩
      have hl' := h.back ho hk
      rw [hl] at hl'
      exact congrArg TunnelLink.tunnelId (Option.some.inj hl')
    · rintro rfl
      obtain ⟨o', ho', -, hb⟩ := h.link hl
      rw [ho] at ho'
      cases ho'
      exact ⟨_, hb⟩
  have keep : ∀ {T' k sid}, T' ≠ T → links.get? sid = some ⟨T', k⟩ →
      (links.filter fun x => !o.serverToOwner.keys.contains x.1).get? sid = some ⟨T', k⟩ := by
    intro T' k sid hT hl
    rw [OrdMap.get?_filter_eq_some]
    refine ⟨hl, ?_⟩
    rw [Bool.not_eq_true', Bool.eq_false_iff]
    exact fun hc => hT ((hmem hl).mp hc)
  refine h.shrink ?_ ?_
  · intro T' o' ho'
    rw [OrdMap.get?_delete] at ho'
    split at ho'
    · cases ho'
    · rename_i hT
      exact ⟨o', ho', rfl, rfl, fun hs => ⟨hs, keep hT⟩, fun hs => ⟨hs, keep hT⟩⟩
  · intro sid l hl
    obtain ⟨hl, hc⟩ := OrdMap.get?_filter_eq_some.mp hl
    refine ⟨hl, fun o' ho' hs hb => ⟨o', ?_, hs, hb⟩⟩
    have hT : l.tunnelId ≠ T := by
      intro hT
      have hin := (hmem hl).mpr hT
      dsimp only at hc
      rw [hin] at hc
      cases hc
    rw [OrdMap.get?_delete_ne _ hT]
    exact ho'

theorem clear (h : Routed p pre owners links) : Routed p pre ∅ ∅ :=
  h.shrink (fun ho => by cases ho) (fun hl => by cases hl)

end Routed

/-! ### Runs -/

section Runs

variable (p) in
/-- **The condition.** No owner stream takes over a tunnel with linked streams (and the numbers of an
owner have not reached `2 ^ 53`, where they stop). -/
def OwnersReopenUnlinked (s : ControlState) (e : ControlEvent) : Prop :=
  ∀ id target, e = .streamOpen id target →
    (∀ t, parseStreamTarget p target = some (.publicTunnelOwner t) →
      ∀ sid l, s.publicTunnelStreams.get? sid = some l → l.tunnelId ≠ mapKey s.opens t) ∧
    (∀ t init o, parseStreamTarget p target = some (.publicTunnelStream t init) →
      s.publicTunnelOwners.get? (mapKey s.opens t) = some o → o.nextStreamId < 2 ^ 53)

instance (s : ControlState) (e : ControlEvent) : Decidable (OwnersReopenUnlinked p s e) :=
  match e with
  | .streamOpen id target =>
    match ht : parseStreamTarget p target with
    | some (.publicTunnelOwner t) =>
      decidable_of_iff (∀ x ∈ s.publicTunnelStreams.entries, x.2.tunnelId ≠ mapKey s.opens t) (by
        simp only [OwnersReopenUnlinked, OrdMap.get?_eq_some, ControlEvent.streamOpen.injEq]
        constructor
        · rintro h id' target' ⟨-, rfl⟩
          simp only [ht, Option.some.injEq, StreamTarget.publicTunnelOwner.injEq, reduceCtorEq,
            IsEmpty.forall_iff, implies_true, and_true]
          rintro t' rfl sid l hl
          exact h _ hl
        · intro h x hx
          exact (h id target ⟨rfl, rfl⟩).1 t ht x.1 x.2 hx)
    | some (.publicTunnelStream t _) =>
      decidable_of_iff (∀ o ∈ s.publicTunnelOwners.get? (mapKey s.opens t), o.nextStreamId < 2 ^ 53) (by
        simp only [OwnersReopenUnlinked, ControlEvent.streamOpen.injEq]
        constructor
        · rintro h id' target' ⟨-, rfl⟩
          simp only [ht, Option.some.injEq, StreamTarget.publicTunnelStream.injEq, reduceCtorEq,
            IsEmpty.forall_iff, implies_true, true_and]
          rintro t' init o ⟨rfl, -⟩ ho
          exact h o ho
        · intro h o ho
          exact (h id target ⟨rfl, rfl⟩).2 t _ o ht ho)
    | some .dataPlane => .isTrue (by
        rintro id' target' ⟨⟩
        simp [ht])
    | some (.rawTunnel _ _) => .isTrue (by
        rintro id' target' ⟨⟩
        simp [ht])
    | none => .isTrue (by
        rintro id' target' ⟨⟩
        simp [ht])
  | .streamData _ _ | .streamClose _ | .socketData _ _ | .socketClosed _ | .socketError _ _
  | .dataPlaneDone _ | .executed _ _ | .connectionClosed => .isTrue (by
      rintro id target ⟨⟩)

/-- Two streams linked to one tunnel have different numbers. -/
def LinksDistinct (s : ControlState) : Prop :=
  ∀ sid sid' l, s.publicTunnelStreams.get? sid = some l →
    s.publicTunnelStreams.get? sid' = some l → sid = sid'

variable (p) in
/-- What is forwarded for the event `e` belongs together. Data of a linked stream goes to an owner under
a number that the owner maps to this stream, and under which it was opened there; what an owner's frame
with number `k` causes on a stream is for the one stream opened with this number. -/
structure ForwardsSoundly (pre : List ControlEvent) (s : ControlState) (e : ControlEvent) : Prop where
  toOwner : ∀ {sid data O frame type k payload}, e = .streamData sid data →
    s.publicTunnelStreams.has sid = true → .streamData O frame ∈ (s.handle p e).2 →
    encodePublicTunnelFrame type k payload = .ok frame →
    ∃ T o, s.publicTunnelOwners.get? T = some o ∧ o.streamId = O ∧
      o.ownerToServer.get? k = some sid ∧ OpenedOn p pre O k sid
  toStream : ∀ {T o data f sid}, s.publicTunnelOwners.get? T = some o →
    e = .streamData o.streamId data → decodePublicTunnelFrame (decodeBase64 data) = .ok f →
    f.type ≠ PublicTunnelFrame.ping.code →
    ((∃ bytes, .streamData sid bytes ∈ (s.handle p e).2) ∨
      ∃ reason, .streamClose sid reason ∈ (s.handle p e).2) →
    OpenedOn p pre o.streamId f.streamId sid ∧
      ∀ sid', OpenedOn p pre o.streamId f.streamId sid' → sid' = sid

variable {pre : List ControlEvent} {s : ControlState} {e : ControlEvent}

/-- **One step keeps the routes.** -/
theorem Routed.step (h : Routed p pre (run (ControlState.step p) {} pre).publicTunnelOwners
      (run (ControlState.step p) {} pre).publicTunnelStreams)
    (hn : (openIds (pre ++ [e])).Nodup)
    (hc : OwnersReopenUnlinked p (run (ControlState.step p) {} pre) e) :
    Routed p (pre ++ [e]) (run (ControlState.step p) {} (pre ++ [e])).publicTunnelOwners
      (run (ControlState.step p) {} (pre ++ [e])).publicTunnelStreams := by
  rw [run_concat]
  have hstep := reroutes (p := p) (run (ControlState.step p) {} pre) e
  generalize (ControlState.step p (run (ControlState.step p) {} pre) e).publicTunnelOwners = owners'
    at hstep ⊢
  generalize (ControlState.step p (run (ControlState.step p) {} pre) e).publicTunnelStreams = links'
    at hstep ⊢
  have closed : (∀ id target, e ≠ .streamOpen id target) → ∀ O k sid,
      ¬ OpensOn p (run (ControlState.step p) {} pre) e O k sid := by
    intro he O k sid hop
    obtain ⟨target, heq⟩ := hop.isOpen
    exact he _ _ heq
  have fresh : ∀ {id target}, e = .streamOpen id target → id ∉ openIds pre := by
    rintro id target rfl
    rw [openIds_concat_open] at hn
    exact fun hm => (List.nodup_append.mp hn).2.2 id hm id (by simp) rfl
  cases hstep with
  | same hno => exact h.later hno
  | owner id target t he ht =>
    have hid := fresh he
    have hno : ∀ O k sid, ¬ OpensOn p (run (ControlState.step p) {} pre) e O k sid := by
      rintro O k sid ⟨target', t', init, o, heq, ht', -⟩
      rw [he] at heq
      cases heq
      rw [ht] at ht'
      cases ht'
    refine (h.later hno).setOwner ?_ ?_ ?_ ?_ ((hc id target he).1 t ht)
    · rw [he, openIds_concat_open]
      simp
    · rintro T' o ho rfl
      exact hid (h.ownerIds ho)
    · intro k sid hop
      rcases openedOn_concat.mp hop with hop | hop
      · exact hid (h.openedIds hop)
      · exact hno _ _ _ hop
    · rw [Option.eq_none_iff_forall_ne_some]
      exact fun l hl => hid (h.linkIds hl)
  | stream id target t init o he ht ho =>
    have hid := fresh he
    refine h.setStream ho ((hc id target he).2 t init o ht ho) ?_ ?_ ?_ ?_
    · intro O k sid
      rw [openedOn_concat]
      refine or_congr_right ⟨?_, ?_⟩
      · rintro ⟨target', t', init', o', heq, ht', ho', hO, hk⟩
        rw [he] at heq
        cases heq
        rw [ht] at ht'
        cases ht'
        rw [ho] at ho'
        cases ho'
        exact ⟨hO.symm, hk.symm, rfl⟩
      · rintro ⟨rfl, rfl, rfl⟩
        exact ⟨target, t, init, o, he, ht, ho, rfl, rfl⟩
    · rw [he, openIds_concat_open]
      simp
    · rw [Option.eq_none_iff_forall_ne_some]
      exact fun l hl => hid (h.linkIds hl)
    · rintro T' o' ho' rfl
      exact hid (h.ownerIds ho')
  | cleanup he sid l o hl ho => exact (h.later (closed he)).unlink hl ho
  | orphan he sid l hl ho =>
    obtain ⟨o, ho', -⟩ := h.link hl
    rw [ho] at ho'
    cases ho'
  | ownerClose he T o ho => exact (h.later (closed he)).closeOwner ho
  | clear he => exact (h.later (closed he)).clear

/-- **A whole run keeps the routes.** -/
theorem routed_run {events : List ControlEvent} (hn : (openIds events).Nodup)
    (hc : Steps (ControlState.step p) (fun _ => OwnersReopenUnlinked p) {} events) :
    Routed p events (run (ControlState.step p) {} events).publicTunnelOwners
      (run (ControlState.step p) {} events).publicTunnelStreams := by
  have hrun := run_induct (J := fun pre s => (openIds pre).Nodup →
    s = run (ControlState.step p) {} pre → Routed p pre s.publicTunnelOwners s.publicTunnelStreams)
    (C := fun _ => OwnersReopenUnlinked p) (fun _ _ => routed_nil)
    (fun pre e ih hcond hnodup _ => by
      have hpre : (openIds pre).Nodup := by
        unfold openIds at *
        rw [List.filterMap_append] at hnodup
        exact (List.nodup_append.mp hnodup).1
      have hnext := (ih hpre rfl).step hnodup hcond
      rw [run_concat] at hnext
      exact hnext) hc
  exact hrun hn rfl

/-! ### What is forwarded -/

theorem mem_sendFrame {O O' : JsString} {type : PublicTunnelFrame} {k : ℕ} {payload frame : Bytes}
    (h : .streamData O' frame ∈ sendFrame O type k payload) :
    O' = O ∧ encodePublicTunnelFrame type k payload = .ok frame := by
  unfold sendFrame at h
  split at h
  · rename_i frame' hframe
    have heq := List.mem_singleton.mp h
    cases heq
    exact ⟨rfl, hframe⟩
  · have heq := List.mem_singleton.mp h
    cases heq

/-- What the frame of an owner causes on a stream goes to the stream under its number. -/
theorem target_of_ownerFrame {o : TunnelOwner} {f : DecodedFrame} {sid : JsString}
    (hping : f.type ≠ PublicTunnelFrame.ping.code)
    (h : (∃ bytes, .streamData sid bytes ∈ (s.handleOwnerFrame o f).2) ∨
      ∃ reason, .streamClose sid reason ∈ (s.handleOwnerFrame o f).2) :
    o.ownerToServer.get? f.streamId = some sid := by
  unfold ControlState.handleOwnerFrame at h
  rw [if_neg hping] at h
  split at h
  · simp at h
  split at h
  · simp at h
  · simp at h
  · rename_i serverStreamId _ hget
    rw [hget]
    split at h
    · simp at h
      rw [h]
    split at h
    · simp at h
      rw [h]
    split at h
    · simp at h
      rw [h]
    · simp at h

theorem Routed.ownerEntry? (h : Routed p pre s.publicTunnelOwners s.publicTunnelStreams) {T : MapKey}
    {o : TunnelOwner} (ho : s.publicTunnelOwners.get? T = some o) :
    s.ownerEntry? o.streamId = some (T, o) := by
  cases hfind : s.ownerEntry? o.streamId with
  | none =>
    have hall := List.find?_eq_none.mp hfind (T, o) (OrdMap.get?_eq_some.mp ho)
    simp at hall
  | some entry =>
    obtain ⟨T', o'⟩ := entry
    obtain ⟨ho', hid⟩ := ownerEntry?_spec hfind
    have hT := h.ownerInj ho' ho hid
    subst hT
    rw [ho] at ho'
    cases ho'
    rfl

theorem Routed.ownerEntry?_linked (h : Routed p pre s.publicTunnelOwners s.publicTunnelStreams)
    {sid : JsString} {l : TunnelLink} (hl : s.publicTunnelStreams.get? sid = some l) :
    s.ownerEntry? sid = none := by
  cases hfind : s.ownerEntry? sid with
  | none => rfl
  | some entry =>
    obtain ⟨T, o⟩ := entry
    obtain ⟨ho, hid⟩ := ownerEntry?_spec hfind
    have hnone := h.apart ho
    rw [hid, hl] at hnone
    cases hnone

theorem Routed.forwards (h : Routed p pre s.publicTunnelOwners s.publicTunnelStreams)
    (e : ControlEvent) : ForwardsSoundly p pre s e where
  toOwner := by
    rintro sid data O frame type k payload rfl hhas hmem henc
    obtain ⟨l, hl⟩ := Option.isSome_iff_exists.mp hhas
    obtain ⟨o, ho, hs, -⟩ := h.link hl
    have hmem' : .streamData O frame ∈ (s.handleData sid data).2 := hmem
    unfold ControlState.handleData at hmem'
    rw [h.ownerEntry?_linked hl] at hmem'
    dsimp only at hmem'
    rw [hl] at hmem'
    dsimp only at hmem'
    rw [ho] at hmem'
    obtain ⟨hO, henc'⟩ := mem_sendFrame hmem'
    have hk : l.ownerStreamId = k := encodePublicTunnelFrame_inj henc' henc
    subst hO hk
    exact ⟨l.tunnelId, o, ho, rfl, hs, h.made ho hs⟩
  toStream := by
    rintro T o data f sid ho rfl hf hping heff
    have heff' : (∃ bytes, .streamData sid bytes ∈ (s.handleData o.streamId data).2) ∨
        ∃ reason, .streamClose sid reason ∈ (s.handleData o.streamId data).2 := heff
    unfold ControlState.handleData at heff'
    rw [h.ownerEntry? ho] at heff'
    dsimp only at heff'
    rw [hf] at heff'
    have hs := target_of_ownerFrame hping heff'
    have hmade := h.made ho hs
    exact ⟨hmade, fun sid' h' => h.unique h' hmade⟩

/-- **Isolation.** In a run in which no stream id is opened twice and every step meets the condition,
the streams linked to a tunnel have different numbers in every state, and every step forwards
soundly. -/
theorem routing_isolated {events : List ControlEvent} (hn : (openIds events).Nodup)
    (hc : Steps (ControlState.step p) (fun _ => OwnersReopenUnlinked p) {} events) :
    (∀ pre, pre <+: events → LinksDistinct (run (ControlState.step p) {} pre)) ∧
      Steps (ControlState.step p) (ForwardsSoundly p) {} events := by
  have hrouted : ∀ pre post, events = pre ++ post →
      Routed p pre (run (ControlState.step p) {} pre).publicTunnelOwners
        (run (ControlState.step p) {} pre).publicTunnelStreams := by
    rintro pre post rfl
    refine routed_run ?_ hc.of_append
    unfold openIds at *
    rw [List.filterMap_append] at hn
    exact (List.nodup_append.mp hn).1
  refine ⟨?_, ?_⟩
  · rintro pre ⟨post, hpost⟩ sid sid' l h1 h2
    exact (hrouted pre post hpost.symm).link_inj h1 h2
  · intro pre e post heq
    exact (hrouted pre (e :: post) heq).forwards e

end Runs

/-! ### Two runs -/

namespace Sample

def ownerTarget : Option JsString :=
  some (stringify (.obj [(js "kind", .str (js "public-tunnel-owner")), (js "tunnel_id", .str (js "t"))]))

def streamTarget : Option JsString :=
  some (stringify (.obj [(js "kind", .str (js "public-tunnel-stream")), (js "tunnel_id", .str (js "t"))]))

/-- An owner, two clients, data in both directions, and the end of the first client. -/
def session : List ControlEvent :=
  [.streamOpen (js "o1") ownerTarget, .streamOpen (js "s1") streamTarget,
    .streamOpen (js "s2") streamTarget, .streamData (js "s2") (base64 [72, 105]),
    .streamData (js "o1") (base64 [2, 0, 0, 0, 2, 79, 75]), .streamClose (js "s1")]

/-- A second owner stream takes over the tunnel while a client is linked. -/
def takeover : List ControlEvent :=
  [.streamOpen (js "o1") ownerTarget, .streamOpen (js "s1") streamTarget,
    .streamOpen (js "o2") ownerTarget, .streamOpen (js "s2") streamTarget]

def platform : Platform := Tables.platform {}

theorem session_isolated :
    (∀ pre, pre <+: session → LinksDistinct (run (ControlState.step platform) {} pre)) ∧
      Steps (ControlState.step platform) (ForwardsSoundly platform) {} session :=
  routing_isolated (by decide +kernel) (by decide +kernel)

/-- Both clients are number one now, and the data of the first one reaches the new owner as data of the
second one. -/
theorem takeover_mixes :
    (openIds takeover).Nodup ∧ ¬ LinksDistinct (run (ControlState.step platform) {} takeover) ∧
      ¬ ForwardsSoundly platform takeover (run (ControlState.step platform) {} takeover)
        (.streamData (js "s1") (base64 [72, 105])) := by
  refine ⟨by decide +kernel, ?_, ?_⟩
  · intro h
    have heq := h (js "s1") (js "s2") ⟨.value (.str (js "t")), 1⟩ (by decide +kernel)
      (by decide +kernel)
    exact absurd heq (by decide +kernel)
  · intro h
    obtain ⟨T, o, ho, -, hs, -⟩ := h.toOwner (O := js "o2") (k := 1) rfl (by decide +kernel)
      (show ControlEffect.streamData (js "o2") [2, 0, 0, 0, 1, 72, 105] ∈ _ by decide +kernel)
      (show encodePublicTunnelFrame .streamData 1 [72, 105] = _ by decide +kernel)
    have hall : ∀ x ∈ (run (ControlState.step platform) {} takeover).publicTunnelOwners.entries,
        x.2.ownerToServer.get? 1 ≠ some (js "s1") := by decide +kernel
    exact hall _ (OrdMap.get?_eq_some.mp ho) hs

end Sample

end ConsensusNode.Clients
