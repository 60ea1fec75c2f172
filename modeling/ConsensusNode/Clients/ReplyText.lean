import ConsensusNode.Clients.RequestAnswers
import ConsensusNode.Tunnel.EndToEnd
import ConsensusNode.Tunnel.TunnelClient

/-! # What the other side reads

The answers of a proxy session and the messages of a handler are JSON text; an infinite number becomes `null`
on the way (`finitize`).

* `session_answers`: a message of a proxy session gets its answer in band, with its own `id`; only the text `null`
  makes the session throw.
* `every_reply_read`: what the handlers send in a run passes `decodeMessage` at the other side. -/

namespace ConsensusNode.Clients

open Js Lib Lib.Run ConsensusNode.Runtime ConsensusNode.Tunnel

variable {p : Platform}

/-! ### Objects that are read back -/

theorem readable_object {fs : List (JsString × Option Json)} (hn : (fs.map Prod.fst).Nodup)
    (ho : (fs.map Prod.fst).Pairwise fun k l => rank k ≤ rank l)
    (h : ∀ e ∈ fs, ∀ v, e.2 = some v → Readable v) : Readable (.obj (definedFields fs)) := by
  have hsub := sublist_keys_definedFields fs
  refine readable_obj_iff.mpr ⟨hn.sublist hsub, ordered_iff_keys.mpr (ho.sublist hsub), ?_⟩
  intro e he
  obtain ⟨e', he', hv⟩ := List.mem_filterMap.mp he
  obtain ⟨v, hsome, rfl⟩ := Option.map_eq_some_iff.mp hv
  exact h e' he' v hsome

/-- What is read of a field. -/
theorem field?_read {l : List (JsString × Option Json)} (hn : (l.map Prod.fst).Nodup) (k : JsString) :
    (finitize (.obj (definedFields l))).field? k = ((l.lookup k).join).map finitize := by
  rw [field?_finitize]
  exact congrArg (Option.map finitize) (lookup_definedFields hn)

/-! ### Proxy sessions -/

/-- What the client of a proxy session reads, for the request that its message holds (`none` if it is no JSON). -/
inductive SessionReply (outcome : Except JsString ProxyResult) : Option Json → Json → Prop
  | invalid {v : Json} (id : v.field? (js "id") = none)
      (error : v.field? (js "error") = some (.str (js "invalid_request")))
      (message : v.field? (js "message") = some (.str (js "Message must be valid JSON"))) :
      SessionReply outcome none v
  | noUrl {request v : Json} (url : Json.truthy (request.field? (js "url")) = false)
      (id : v.field? (js "id") = (request.field? (js "id")).map finitize)
      (error : v.field? (js "error") = some (.str (js "invalid_request")))
      (message : v.field? (js "message") = some (.str (js "Missing required field: url"))) :
      SessionReply outcome (some request) v
  | failed {request v : Json} {message : JsString} (url : Json.truthy (request.field? (js "url")) = true)
      (ends : outcome = .error message) (id : v.field? (js "id") = (request.field? (js "id")).map finitize)
      (error : v.field? (js "error") = some (.str (js "fetch_failed")))
      (text : v.field? (js "message") = some (.str message)) : SessionReply outcome (some request) v
  | served {request v : Json} {response : ProxyResult} (url : Json.truthy (request.field? (js "url")) = true)
      (ends : outcome = .ok response) (id : v.field? (js "id") = (request.field? (js "id")).map finitize)
      (error : v.field? (js "error") = none)
      (status : v.field? (js "status") = some (.num (JsNumber.ofNat response.status)))
      (headers : v.field? (js "headers") = some (headersJson response.headers))
      (encoding : v.field? (js "body_encoding") = some (.str (js "base64")))
      (body : ∃ text, v.field? (js "body") = some (.str text) ∧ decodeBase64 text = response.body) :
      SessionReply outcome (some request) v

section Session

variable {id : Option Json} {error message : JsString}

theorem nodup_sessionError : ([js "id", js "error", js "message"] : List JsString).Nodup := by decide

theorem readable_sessionError (hid : ∀ v, id = some v → Readable v) :
    Readable (sessionError id error message) := by
  refine readable_object ?_ ?_ ?_
  · exact nodup_sessionError
  · show [js "id", js "error", js "message"].Pairwise _
    decide
  · intro e he v hv
    simp only [List.mem_cons, List.not_mem_nil, or_false] at he
    rcases he with rfl | rfl | rfl
    · exact hid v hv
    · cases hv
      exact readable_str _
    · cases hv
      exact readable_str _

theorem nodup_sessionResponse : ([js "id", js "status", js "headers", js "body", js "body_encoding",
    js "meta"] : List JsString).Nodup := by decide

theorem readable_sessionResponse {response : ProxyResult} (hid : ∀ v, id = some v → Readable v)
    (hr : IsResult response) : Readable (sessionResponse id response) := by
  refine readable_object ?_ ?_ ?_
  · exact nodup_sessionResponse
  · show [js "id", js "status", js "headers", js "body", js "body_encoding", js "meta"].Pairwise _
    decide
  · intro e he v hv
    simp only [List.mem_cons, List.not_mem_nil, or_false] at he
    rcases he with rfl | rfl | rfl | rfl | rfl | rfl
    · exact hid v hv
    · cases hv
      exact ⟨trivial, fixes_num hr.status⟩
    · cases hv
      exact (exact_headersJson hr.headers).1
    · cases hv
      exact readable_str _
    · cases hv
      exact readable_str _
    · cases hv
      refine readable_obj_iff.mpr ⟨by simp, List.pairwise_singleton _ _, fun e he => ?_⟩
      rw [List.mem_singleton.mp he]
      exact readable_str _

/-- What is written is read back. -/
theorem parse_jsonBuffer {v : Json} (h : Readable v) :
    parse (decodeUtf8 (jsonBuffer v)) = some (finitize v) := parse_decode_stringify h.1 h.2

theorem reply_noUrl {outcome : Except JsString ProxyResult} {request : Json}
    (url : Json.truthy (request.field? (js "url")) = false) :
    SessionReply outcome (some request) (finitize (sessionError (request.field? (js "id"))
      (js "invalid_request") (js "Missing required field: url"))) := by
  have hread := field?_read (l := [(js "id", request.field? (js "id")),
    (js "error", some (.str (js "invalid_request"))),
    (js "message", some (.str (js "Missing required field: url")))]) nodup_sessionError
  exact .noUrl url (hread _) (hread _) (hread _)

theorem reply_failed {request : Json} {message : JsString}
    (url : Json.truthy (request.field? (js "url")) = true) :
    SessionReply (.error message) (some request) (finitize (sessionError (request.field? (js "id"))
      (js "fetch_failed") message)) := by
  have hread := field?_read (l := [(js "id", request.field? (js "id")),
    (js "error", some (.str (js "fetch_failed"))), (js "message", some (.str message))]) nodup_sessionError
  exact .failed url rfl (hread _) (hread _) (hread _)

theorem reply_served {request : Json} {response : ProxyResult} (hr : IsResult response)
    (url : Json.truthy (request.field? (js "url")) = true) :
    SessionReply (.ok response) (some request)
      (finitize (sessionResponse (request.field? (js "id")) response)) := by
  have hread := field?_read (l := [(js "id", request.field? (js "id")),
    (js "status", some (.num (JsNumber.ofNat response.status))),
    (js "headers", some (headersJson response.headers)), (js "body", some (.str (base64 response.body))),
    (js "body_encoding", some (.str (js "base64"))),
    (js "meta", some (.obj [(js "served_by", .str (js "node-control"))]))]) nodup_sessionResponse
  have hheaders : finitize (headersJson response.headers) = headersJson response.headers :=
    (exact_headersJson hr.headers).2
  refine .served url rfl (hread _) (hread _) (hread _) ?_ (hread _) ?_
  · rw [← hheaders]
    exact hread _
  · exact ⟨base64 response.body, hread _, decodeBase64_base64 _⟩

/-- **A message of a proxy session gets its answer in band**, with its own `id`, unless it is the text `null`. -/
theorem session_answers (native : JsString) (outcome : Except JsString ProxyResult)
    (hresult : ∀ response, outcome = .ok response → IsResult response) (data : Bytes) :
    (parse (decodeUtf8 data) = some .null → (sessionRequest data).output native outcome = .error native) ∧
      (parse (decodeUtf8 data) ≠ some .null → ∃ out v, (sessionRequest data).output native outcome = .ok out ∧
        parse (decodeUtf8 out) = some v ∧ SessionReply outcome (parse (decodeUtf8 data)) v) := by
  unfold sessionRequest
  generalize hparse : parse (decodeUtf8 data) = request
  have hid : ∀ {r : Json}, request = some r → ∀ v, r.field? (js "id") = some v → Readable v := by
    rintro r rfl v hv
    exact (readable_parse hparse).field hv
  split
  · have hnone : ∀ v, (none : Option Json) = some v → Readable v := fun v hv => absurd hv (by simp)
    refine ⟨fun h => absurd h (by simp), fun _ => ⟨_, _, rfl, parse_jsonBuffer (readable_sessionError hnone), ?_⟩⟩
    exact .invalid rfl rfl rfl
  · exact ⟨fun _ => rfl, fun h => absurd rfl h⟩
  · rename_i r hnull
    refine ⟨fun h => absurd h (by simpa using hnull), fun _ => ?_⟩
    rcases hurl : Json.truthy (r.field? (js "url")) with _ | _
    · rw [if_neg (by simp)]
      exact ⟨_, _, rfl, parse_jsonBuffer (readable_sessionError (hid rfl)), reply_noUrl hurl⟩
    · rw [if_pos rfl]
      rcases outcome with message | response
      · exact ⟨_, _, rfl, parse_jsonBuffer (readable_sessionError (hid rfl)), reply_failed hurl⟩
      · have hr : IsResult response := hresult response rfl
        exact ⟨_, _, rfl, parse_jsonBuffer (readable_sessionResponse (hid rfl) hr), reply_served hr hurl⟩

end Session

/-! ### Messages -/

theorem decode_fields {fs : List (JsString × Option Json)} {k : JsString} {x : JsNumber}
    (hr : Readable (.obj (definedFields fs))) (hn : (fs.map Prod.fst).Nodup)
    (htype : (fs.lookup (js "type")).join = some (.str k)) (hknown : MESSAGE_TYPES.contains k = true)
    (htime : (fs.lookup (js "timestamp")).join = some (.num x)) (hx : IsClock x) :
    decodeMessage (encodeMessage (.obj (definedFields fs))) = .ok (finitize (.obj (definedFields fs))) := by
  have hlookup : ∀ k, (finitizeFields (definedFields fs)).lookup k = ((fs.lookup k).join).map finitize :=
    field?_read hn
  have hassert : assertTunnelMessage (finitize (.obj (definedFields fs))) = .ok () := by
    show assertTunnelMessage (.obj (finitizeFields (definedFields fs))) = .ok ()
    unfold assertTunnelMessage
    dsimp only
    rw [hlookup, hlookup, htype, htime]
    obtain ⟨z, -, rfl⟩ := hx
    show (require (MESSAGE_TYPES.contains k) _ >>= fun _ => require true _) = _
    rw [hknown]
    rfl
  unfold decodeMessage encodeMessage
  rw [parse_decode_stringify hr.1 hr.2]
  dsimp only
  rw [hassert]
  rfl

/-- The other side reads the message that has been sent. -/
def ReadBack (message : Json) : Prop := decodeMessage (encodeMessage message) = .ok (finitize message)

/-- The field, if it is defined, holds a value that has been parsed or made of such values. -/
def ReadableField (v : Option Json) : Prop := ∀ w, v = some w → Readable w

section Messages

variable {t x : JsNumber} {id action result : Option Json} {code message : JsString}

theorem readable_clock (h : IsClock t) : ReadableField (some (.num t)) := by
  intro w hw
  cases hw
  exact (exact_clock h).1

theorem readable_text (s : JsString) : ReadableField (some (.str s)) := by
  intro w hw
  cases hw
  exact readable_str s

theorem readable_bool (b : Bool) : ReadableField (some (.bool b)) := by
  intro w hw
  cases hw
  exact ⟨trivial, trivial⟩

theorem readable_orElse (h : ReadableField id) (s : JsString) : ReadableField (some (orElse id (.str s))) := by
  intro w hw
  cases hw
  unfold orElse
  split
  · exact readable_str s
  · exact readable_str s
  · exact h _ rfl

theorem readBack_error (ht : IsClock t) (hid : ReadableField id) (code message : JsString) :
    ReadBack (createErrorMessage t id code message) := by
  have hn : ([js "type", js "timestamp", js "reply_to", js "code", js "message"] : List JsString).Nodup := by decide
  refine decode_fields (k := js "error") (readable_object hn ?_ ?_) hn rfl (by decide) rfl ht
  · show [js "type", js "timestamp", js "reply_to", js "code", js "message"].Pairwise _
    decide
  · intro e he
    simp only [List.mem_cons, List.not_mem_nil, or_false] at he
    rcases he with rfl | rfl | rfl | rfl | rfl
    · exact readable_text _
    · exact readable_clock ht
    · exact hid
    · exact readable_text _
    · exact readable_text _

theorem readBack_evalResponse (ht : IsClock t) (hid : ReadableField id) (haction : ReadableField action)
    (hresult : ReadableField result) : ReadBack (evalResponse t id action result) := by
  have hn : ([js "type", js "timestamp", js "reply_to", js "action", js "ok", js "result"] :
    List JsString).Nodup := by decide
  refine decode_fields (k := js "eval_response") (readable_object hn ?_ ?_) hn rfl (by decide) rfl ht
  · show [js "type", js "timestamp", js "reply_to", js "action", js "ok", js "result"].Pairwise _
    decide
  · intro e he
    simp only [List.mem_cons, List.not_mem_nil, or_false] at he
    rcases he with rfl | rfl | rfl | rfl | rfl | rfl
    · exact readable_text _
    · exact readable_clock ht
    · exact readable_orElse hid _
    · exact haction
    · exact readable_bool _
    · exact hresult

theorem readBack_evalFailure (ht : IsClock t) (hid : ReadableField id) (haction : ReadableField action)
    (message : JsString) : ReadBack (evalFailure t id action message) := by
  have hn : ([js "type", js "timestamp", js "reply_to", js "action", js "ok", js "error"] :
    List JsString).Nodup := by decide
  refine decode_fields (k := js "eval_response") (readable_object hn ?_ ?_) hn rfl (by decide) rfl ht
  · show [js "type", js "timestamp", js "reply_to", js "action", js "ok", js "error"].Pairwise _
    decide
  · intro e he
    simp only [List.mem_cons, List.not_mem_nil, or_false] at he
    rcases he with rfl | rfl | rfl | rfl | rfl | rfl
    · exact readable_text _
    · exact readable_clock ht
    · exact readable_orElse hid _
    · exact haction
    · exact readable_bool _
    · exact readable_text _

theorem readBack_proxyResponse {response : ProxyResult} (ht : IsClock t) (hid : ReadableField id)
    (hr : IsResult response) : ReadBack (proxyResponse t id response) := by
  have hn : ([js "type", js "timestamp", js "reply_to", js "status", js "status_text", js "headers", js "body",
    js "body_encoding", js "cached", js "profile_hash"] : List JsString).Nodup := by decide
  refine decode_fields (k := js "proxy_response") (readable_object hn ?_ ?_) hn rfl (by decide) rfl ht
  · show [js "type", js "timestamp", js "reply_to", js "status", js "status_text", js "headers", js "body",
      js "body_encoding", js "cached", js "profile_hash"].Pairwise _
    decide
  · intro e he
    simp only [List.mem_cons, List.not_mem_nil, or_false] at he
    rcases he with rfl | rfl | rfl | rfl | rfl | rfl | rfl | rfl | rfl | rfl
    · exact readable_text _
    · exact readable_clock ht
    · exact readable_orElse hid _
    · intro w hw
      cases hw
      exact ⟨trivial, fixes_num hr.status⟩
    · exact readable_text _
    · intro w hw
      cases hw
      exact (exact_headersJson hr.headers).1
    · exact readable_text _
    · exact readable_text _
    · exact readable_bool _
    · intro w hw
      exact (exact_of_map_str hw).1

theorem readBack_streamData (ht : IsClock t) (streamId : JsString) (data : Bytes) :
    ReadBack (streamDataMessage t streamId data) := by
  have hn : ([js "type", js "timestamp", js "stream_id", js "data", js "encoding"] :
    List JsString).Nodup := by decide
  have hdefined : streamDataMessage t streamId data = .obj (definedFields
      [(js "type", some (.str (js "stream_data"))), (js "timestamp", some (.num t)),
      (js "stream_id", some (.str streamId)), (js "data", some (.str (base64 data))),
      (js "encoding", some (.str (js "base64")))]) := rfl
  rw [hdefined]
  refine decode_fields (k := js "stream_data") (readable_object hn ?_ ?_) hn rfl (by decide) rfl ht
  · show [js "type", js "timestamp", js "stream_id", js "data", js "encoding"].Pairwise _
    decide
  · intro e he
    simp only [List.mem_cons, List.not_mem_nil, or_false] at he
    rcases he with rfl | rfl | rfl | rfl | rfl
    · exact readable_text _
    · exact readable_clock ht
    · exact readable_text _
    · exact readable_text _
    · exact readable_text _

end Messages

/-! ### Every reply is read -/

def Handler.Typed : Handler → Prop
  | .proxy id => ReadableField id
  | .eval id action => ReadableField id ∧ ReadableField action
  | .session _ _ => True

def Outcome.Typed : Outcome → Prop
  | .served response => IsResult response
  | .evaluated result => ReadableField result
  | _ => True

/-- The values of a turn are those of the language: they have been parsed, counted or fetched. -/
structure RequestTurn.Typed (t : RequestTurn) : Prop where
  clock : IsClock t.surroundings.timestamp
  message : ∀ m, t.event = .proxyRequest m ∨ t.event = .evalRequest m → Readable m
  served : ∀ n response, t.event = .served n (.ok response) → IsResult response
  evaluated : ∀ n result, t.event = .evaluated n (.ok result) → ReadableField result

theorem mem_deliver {w : Surroundings} {m : Json} : ∀ {text : JsString} {messages : List (JsString → Json)},
    m ∈ w.deliver text messages → ∃ f ∈ messages, ∃ text', m = f text'
  | text, f :: messages, h => by
    unfold Surroundings.deliver at h
    split at h
    · exact ⟨f, List.mem_cons_self, text, List.mem_singleton.mp h⟩
    · obtain ⟨g, hg, text', hm⟩ := mem_deliver h
      exact ⟨g, List.mem_cons_of_mem _ hg, text', hm⟩

theorem reply_readBack {e : Ending} (ht : IsClock e.surroundings.timestamp) (hh : e.handler.Typed)
    (ho : e.outcome.Typed) {m : Json} (hm : m ∈ e.reply) : ReadBack m := by
  obtain ⟨f, hf, text, rfl⟩ := mem_deliver hm
  clear hm
  have hnone : ReadableField none := fun v hv => absurd hv (by simp)
  have hdecode : ∀ text, ReadBack (decodeFailed e.surroundings.timestamp text) :=
    fun text => readBack_error ht hnone _ _
  obtain ⟨h, o, w⟩ := e
  rcases h with id | ⟨id, action⟩ | ⟨streamId, request⟩
  · rcases o with response | result | message | message | message <;>
      simp only [Ending.messages, List.mem_cons, List.not_mem_nil, or_false] at hf
    · rcases hf with rfl | rfl | rfl
      · exact readBack_proxyResponse ht hh ho
      · exact readBack_error ht hh _ _
      · exact hdecode text
    · rcases hf with rfl | rfl
      · exact readBack_error ht hh _ _
      · exact hdecode text
    · rw [hf]
      exact hdecode text
  · rcases o with response | result | message | message | message <;>
      simp only [Ending.messages, List.mem_cons, List.not_mem_nil, or_false] at hf
    · rcases hf with rfl | rfl | rfl
      · exact readBack_evalResponse ht hh.1 hh.2 ho
      · exact readBack_evalFailure ht hh.1 hh.2 _
      · exact hdecode text
    · rcases hf with rfl | rfl
      · exact readBack_evalFailure ht hh.1 hh.2 _
      · exact hdecode text
    · rcases hf with rfl | rfl
      · exact readBack_error ht hh.1 _ _
      · exact hdecode text
    · rw [hf]
      exact hdecode text
  · simp only [Ending.messages] at hf
    split at hf
    · simp only [List.mem_cons, List.not_mem_nil, or_false] at hf
      rcases hf with rfl | rfl
      · exact readBack_streamData ht streamId _
      · exact readBack_error ht hnone _ _
    · rw [List.mem_singleton.mp hf]
      exact readBack_error ht hnone _ _

/-! Runs -/

theorem typed_handler {s : RequestState} {t : RequestTurn} {h : Handler} {start : Except Outcome RequestCall}
    (ht : t.Typed) (hr : Receives p s t h start) : h.Typed := by
  rcases hr with ⟨he⟩ | ⟨he⟩ | -
  · exact fun v hv => (ht.message _ (.inl he)).field hv
  · exact ⟨fun v hv => (ht.message _ (.inr he)).field hv, fun v hv => (ht.message _ (.inr he)).field hv⟩
  · trivial

/-- The outcome of a handler that makes no call is a text. -/
theorem typed_start {s : RequestState} {t : RequestTurn} {h : Handler} {o : Outcome}
    (hr : Receives p s t h (.error o)) : o.Typed := by
  generalize hstart : Except.error o = start at hr
  have hcommand : ∀ {native message}, startCommand p native message = .error o → o.Typed := by
    intro native message hc
    unfold startCommand at hc
    split at hc
    · cases hc
    · cases hc
      trivial
  rcases hr with - | - | -
  · unfold startProxy at hstart
    split_ifs at hstart
    · cases hstart
      trivial
    · exact hcommand hstart.symm
  · unfold startEval at hstart
    dsimp only at hstart
    split_ifs at hstart
    split at hstart
    · cases hstart
      trivial
    · cases hstart
      trivial
  · unfold startSession at hstart
    split at hstart
    · exact hcommand hstart.symm
    · cases hstart
      trivial

theorem typed_outcome {u : RequestTurn} (hu : u.Typed) {h : Handler} {n : ℕ} {o : Outcome}
    (ho : h.outcome? n u.event = some o) : o.Typed := by
  unfold Handler.outcome? at ho
  split at ho
  · rename_i result he
    split_ifs at ho
    cases ho
    exact hu.evaluated _ _ he
  · split_ifs at ho
    cases ho
    trivial
  · cases ho
  · rename_i response he
    split_ifs at ho
    cases ho
    exact hu.served _ _ he
  · split_ifs at ho
    cases ho
    trivial
  · cases ho

theorem typed_ending {s : RequestState} {t : RequestTurn} {h : Handler} {start : Except Outcome RequestCall}
    {n : ℕ} {later : List RequestTurn} {e : Ending} (ht : t.Typed) (hlater : ∀ u ∈ later, u.Typed)
    (hr : Receives p s t h start) (he : ending? h n t.surroundings start later = some e) :
    IsClock e.surroundings.timestamp ∧ e.handler.Typed ∧ e.outcome.Typed := by
  have hh : h.Typed := typed_handler ht hr
  rcases start with o | call
  · cases he
    exact ⟨ht.clock, hh, typed_start hr⟩
  · obtain ⟨u, hu, hmap⟩ := List.exists_of_findSome?_eq_some he
    obtain ⟨o, ho, rfl⟩ := Option.map_eq_some_iff.mp hmap
    exact ⟨(hlater u hu).clock, hh, typed_outcome (hlater u hu) ho⟩

/-- **Whatever a handler sends is read at the other side**: in every run, each message passes the checks of
`decodeMessage` there and is read as it is, with `null` for the infinite numbers in it. -/
theorem every_reply_read {turns : List RequestTurn} (ht : ∀ t ∈ turns, t.Typed) {n : ℕ} {m : Json}
    (hm : (n, m) ∈ (run (RequestState.step p) {} turns).jobs.said) :
    decodeMessage (encodeMessage m) = .ok (finitize m) := by
  obtain ⟨pre, t, post, h, start, rfl, hr, rfl⟩ := arrived_run turns n (lt_of_said (counted_run turns).sound hm)
  have hsent := (answered_run hr post).sent
  have hmem : m ∈ answer (ending? h (run (RequestState.step p) {} pre).jobs.next t.surroundings start post) := by
    rw [← hsent]
    exact List.mem_map.mpr ⟨_, List.mem_filter.mpr ⟨hm, decide_eq_true rfl⟩, rfl⟩
  rcases hend : ending? h (run (RequestState.step p) {} pre).jobs.next t.surroundings start post with _ | e
  · rw [hend] at hmem
    cases hmem
  · rw [hend] at hmem
    have hpost : ∀ u ∈ post, u.Typed := fun u hu => ht u (by simp [hu])
    obtain ⟨hclock, hhandler, houtcome⟩ := typed_ending (ht t (by simp)) hpost hr hend
    exact reply_readBack hclock hhandler houtcome hmem

namespace Sample

theorem isResult_page (status : ℕ) (body : Bytes) (h : status ≤ 999) : IsResult (page status body) where
  status := isDouble_ofInt (by
    show |(status : ℤ)| ≤ 2 ^ 53
    rw [Nat.abs_cast]
    have hcast : (status : ℤ) ≤ 999 := by exact_mod_cast h
    exact hcast.trans (by norm_num))
  headers := ⟨List.nodup_nil, List.Pairwise.nil⟩

/-- The answer to a request of a session. -/
theorem page_answer : ∃ out v,
    (sessionRequest (utf8 sessionText)).output (js "TypeError") (.ok (page 404 [2])) = .ok out ∧
    parse (decodeUtf8 out) = some v ∧
      SessionReply (.ok (page 404 [2])) (parse (decodeUtf8 (utf8 sessionText))) v := by
  refine (session_answers _ _ ?_ _).2 (by decide +kernel)
  intro response hresponse
  cases hresponse
  exact isResult_page 404 [2] (by decide)

/-- A session, with its request and its answer. -/
def sessionTurns : List RequestTurn :=
  [RequestEvent.stream (.streamOpen (js "s1") (some (js "proxy-session"))),
    .stream (.streamData (js "s1") (base64 (utf8 sessionText))), .served 0 (.ok (page 404 [2]))].map
      fun e => ⟨e, openTunnel⟩

theorem typed_sessionTurns : ∀ t ∈ sessionTurns, t.Typed := by
  intro t ht
  have hclock : IsClock (JsNumber.ofNat 7) := ⟨7, by norm_num, rfl⟩
  obtain ⟨e, he, rfl⟩ := List.mem_map.mp ht
  simp only [List.mem_cons, List.not_mem_nil, or_false] at he
  rcases he with rfl | rfl | rfl
  · exact ⟨hclock, by simp, by simp, by simp⟩
  · exact ⟨hclock, by simp, by simp, by simp⟩
  · refine ⟨hclock, by simp, ?_, by simp⟩
    intro n response h
    cases h
    exact isResult_page 404 [2] (by decide)

/-- The message with the answer. -/
def pageMessage : Json :=
  streamDataMessage (JsNumber.ofNat 7) (js "s1")
    (jsonBuffer (sessionResponse (some (.str (js "q1"))) (page 404 [2])))

theorem page_read : decodeMessage (encodeMessage pageMessage) = .ok (finitize pageMessage) := by
  refine every_reply_read (p := requestPlatform) typed_sessionTurns (n := 0) ?_
  decide +kernel

end Sample

end ConsensusNode.Clients
