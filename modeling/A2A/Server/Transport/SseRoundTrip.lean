/-
# The client reads what the stream writers wrote.
-/
import A2A.Client.SseFrames
import A2A.Server.Transport.ServerSentEvents

namespace A2A.Server.Transport

open A2A.Foundation A2A.Core A2A.Client JsonRpcServerTransport List

/-! ## Items -/

/-- What protobuf says of its compact format: no raw line ends. -/
structure ProtoJsonWriter.Compact (json : ProtoJsonWriter) : Prop where
  streamResponse : ∀ message text, json.streamResponse message = .ok text → 10 ∉ text ∧ 13 ∉ text
  value : ∀ message text, json.value message = .ok text → 10 ∉ text ∧ 13 ∉ text
  struct : ∀ message text, json.struct message = .ok text → 10 ∉ text ∧ 13 ∉ text

inductive SseItem where
  | event (event : StreamResponse)
  | heartbeat
  | failure (error : Error)

/-- The two formats of the events. -/
inductive SseCodec where
  | rest
  | jsonRpc (id : Value)

namespace SseCodec

def eventText (json : ProtoJsonWriter) (codec : SseCodec) (event : StreamResponse) : Result Bytes :=
  match codec with
  | .rest => buildSseEvent json event
  | .jsonRpc id =>
    match buildSseJsonRpcPrefix json id with
    | .error e => .error e
    | .ok lead => buildSseJsonRpcEvent json lead event

def errorText (json : ProtoJsonWriter) (codec : SseCodec) (error : Error) : Result Bytes :=
  match codec with
  | .rest => buildSseErrorEvent json error
  | .jsonRpc id => buildSseJsonRpcErrorEvent json id error

/-- The event that a client is to see, with the JSON text as its data. -/
def dataEvent (json : ProtoJsonWriter) (codec : SseCodec) (event : StreamResponse) : Result SseEvent :=
  match json.streamResponse event with
  | .error e => .error e
  | .ok eventJson =>
    match codec with
    | .rest => .ok ⟨[], eventJson⟩
    | .jsonRpc id => (buildSuccessEnvelopeFromJson json id eventJson).map fun envelope => ⟨[], envelope⟩

/-- The event of an error: one named `error`, or an error envelope. -/
def errorEvent (json : ProtoJsonWriter) (codec : SseCodec) (error : Error) : Result SseEvent :=
  match codec with
  | .rest => (json.struct (sseErrorPayload error)).map fun payload => ⟨bytes "error", payload⟩
  | .jsonRpc id =>
    (json.struct (jsonRpcErrorEnvelope (jsonRpcCodeFromError error) error.message id (some error))).map
      fun envelope => ⟨[], envelope⟩

def itemText (json : ProtoJsonWriter) (codec : SseCodec) : SseItem → Result Bytes
  | .event event => codec.eventText json event
  | .heartbeat => .ok kSseHeartbeat
  | .failure error => codec.errorText json error

/-- The events that a client is to see for an item. -/
def itemEvents (json : ProtoJsonWriter) (codec : SseCodec) : SseItem → Result (List SseEvent)
  | .event event => (codec.dataEvent json event).map fun data => [data]
  | .heartbeat => .ok []
  | .failure error => (codec.errorEvent json error).map fun last => [last]

variable {json : ProtoJsonWriter} {codec : SseCodec}

/-! ## Texts are frames -/

/-- What stands in a success envelope before the result. -/
def envelopeLead (idJson : Bytes) : Bytes := bytes "\x7b\"jsonrpc\":\"2.0\",\"id\":" ++ idJson ++ bytes ",\"result\":"

variable {id : Value} {idJson eventJson text : Bytes} {event : StreamResponse}

theorem buildSuccessEnvelopeFromJson_ok (hid : json.value id = .ok idJson) (resultJson : Bytes) :
    buildSuccessEnvelopeFromJson json id resultJson = .ok (envelopeLead idJson ++ resultJson ++ bytes "\x7d") := by
  unfold buildSuccessEnvelopeFromJson
  rw [hid]
  rfl

theorem buildSseJsonRpcPrefix_ok (hid : json.value id = .ok idJson) :
    buildSseJsonRpcPrefix json id = .ok (kSseDataPrefix ++ envelopeLead idJson) := by
  have hlength : (envelopeLead idJson ++ bytes "\x7d").length - 1 = (envelopeLead idJson).length := by
    rw [length_append]
    rfl
  unfold buildSseJsonRpcPrefix
  rw [buildSuccessEnvelopeFromJson_ok hid, append_nil]
  dsimp only
  rw [hlength, take_left]

theorem buildSseJsonRpcPrefix_error {e : Error} (hid : json.value id = .error e) :
    buildSseJsonRpcPrefix json id = .error e := by
  unfold buildSseJsonRpcPrefix buildSuccessEnvelopeFromJson
  rw [hid]

theorem eventText_jsonRpc (hid : json.value id = .ok idJson) (hevent : json.streamResponse event = .ok eventJson) :
    eventText json (.jsonRpc id) event =
      .ok (kSseDataPrefix ++ (envelopeLead idJson ++ eventJson ++ bytes "\x7d") ++ kSseEventTerminator) := by
  have hsuffix : kJsonRpcSseSuffix = bytes "\x7d" ++ kSseEventTerminator := rfl
  unfold eventText
  dsimp only
  rw [buildSseJsonRpcPrefix_ok hid]
  dsimp only
  rw [buildSseJsonRpcEvent, hevent]
  dsimp only
  rw [hsuffix]
  simp only [append_assoc]

section

variable (hcompact : json.Compact)

include hcompact

theorem plain_envelope (hid : json.value id = .ok idJson) (hevent : json.streamResponse event = .ok eventJson) :
    10 ∉ envelopeLead idJson ++ eventJson ++ bytes "\x7d" ∧ 13 ∉ envelopeLead idJson ++ eventJson ++ bytes "\x7d" := by
  obtain ⟨hidLf, hidCr⟩ := hcompact.value _ _ hid
  obtain ⟨heventLf, heventCr⟩ := hcompact.streamResponse _ _ hevent
  simp only [envelopeLead, mem_append, not_or]
  exact ⟨⟨⟨⟨⟨by decide, hidLf⟩, by decide⟩, heventLf⟩, by decide⟩,
    ⟨⟨⟨⟨by decide, hidCr⟩, by decide⟩, heventCr⟩, by decide⟩⟩

/-- The text of an event is a frame, and the client sees the JSON text as its data. -/
theorem reads_eventText (h : codec.eventText json event = .ok text) :
    ∃ data, codec.dataEvent json event = .ok data ∧ Reads text [data] := by
  cases hevent : json.streamResponse event with
  | error e =>
    cases codec with
    | rest =>
      simp only [eventText, buildSseEvent, hevent] at h
      cases h
    | jsonRpc id =>
      cases hid : json.value id with
      | error e' =>
        simp only [eventText, buildSseJsonRpcPrefix_error hid] at h
        cases h
      | ok idJson =>
        simp only [eventText, buildSseJsonRpcPrefix_ok hid, buildSseJsonRpcEvent, hevent] at h
        cases h
  | ok eventJson =>
    cases codec with
    | rest =>
      obtain ⟨hlf, hcr⟩ := hcompact.streamResponse _ _ hevent
      simp only [eventText, buildSseEvent, hevent] at h
      rw [← Except.ok.inj h]
      exact ⟨⟨[], eventJson⟩, by rw [dataEvent, hevent], Reads.data hlf hcr⟩
    | jsonRpc id =>
      cases hid : json.value id with
      | error e' =>
        simp only [eventText, buildSseJsonRpcPrefix_error hid] at h
        cases h
      | ok idJson =>
        obtain ⟨hlf, hcr⟩ := plain_envelope hcompact hid hevent
        rw [eventText_jsonRpc hid hevent] at h
        rw [← Except.ok.inj h]
        refine ⟨⟨[], _⟩, ?_, Reads.data hlf hcr⟩
        rw [dataEvent, hevent]
        dsimp only
        rw [buildSuccessEnvelopeFromJson_ok hid]
        rfl

/-- An error is read back as one event. -/
theorem reads_errorText {error : Error} (h : codec.errorText json error = .ok text) :
    ∃ last, codec.errorEvent json error = .ok last ∧ Reads text [last] := by
  cases codec with
  | rest =>
    unfold errorText buildSseErrorEvent at h
    cases hprint : json.struct (sseErrorPayload error) with
    | error e =>
      rw [hprint] at h
      cases h
    | ok payload =>
      obtain ⟨hlf, hcr⟩ := hcompact.struct _ _ hprint
      rw [hprint] at h
      rw [← Except.ok.inj h]
      exact ⟨⟨bytes "error", payload⟩, by rw [errorEvent, hprint]; rfl, Reads.error hlf hcr⟩
  | jsonRpc id =>
    cases hprint : json.struct (jsonRpcErrorEnvelope (jsonRpcCodeFromError error) error.message id (some error)) with
    | error e =>
      simp only [errorText, buildSseJsonRpcErrorEvent, hprint] at h
      cases h
    | ok envelope =>
      obtain ⟨hlf, hcr⟩ := hcompact.struct _ _ hprint
      simp only [errorText, buildSseJsonRpcErrorEvent, hprint] at h
      rw [← Except.ok.inj h]
      exact ⟨⟨[], envelope⟩, by rw [errorEvent, hprint]; rfl, Reads.data hlf hcr⟩

theorem reads_itemText {item : SseItem} (h : codec.itemText json item = .ok text) :
    ∃ events, codec.itemEvents json item = .ok events ∧ Reads text events := by
  cases item with
  | event event =>
    obtain ⟨data, hdata, hreads⟩ := reads_eventText hcompact h
    exact ⟨[data], by rw [itemEvents, hdata]; rfl, hreads⟩
  | heartbeat =>
    rw [← Except.ok.inj h]
    exact ⟨[], rfl, Reads.heartbeat⟩
  | failure error =>
    obtain ⟨last, hlast, hreads⟩ := reads_errorText hcompact h
    exact ⟨[last], by rw [itemEvents, hlast]; rfl, hreads⟩

theorem reads_items {items : List SseItem} {texts : List Bytes}
    (h : List.Forall₂ (fun item text => codec.itemText json item = .ok text) items texts) :
    ∃ events, List.Forall₂ (fun item events => codec.itemEvents json item = .ok events) items events ∧
      Reads texts.flatten events.flatten := by
  induction h with
  | nil => exact ⟨[], List.Forall₂.nil, Reads.nil⟩
  | cons hitem _ ih =>
    obtain ⟨events, hevents, hreads⟩ := ih
    obtain ⟨first, hfirst, hreadsFirst⟩ := reads_itemText hcompact hitem
    exact ⟨first :: events, List.Forall₂.cons hfirst hevents, hreadsFirst.append hreads⟩

end

end SseCodec

/-! ## What the loops write -/

section Loops

variable {σ : Type} {transport : HttpByteTransport σ} {stalled : Error}

/-- Over a transport that makes progress a text is written, and the writer goes on. -/
theorem run_writeThen (hprogress : WriteProgram.Progresses transport) (chunk : Bytes) (next : StreamWriter) (state : σ) :
    ∃ state', accepted ((writeThen stalled (.ok chunk) next).run transport state).calls =
      chunk ++ accepted (next.run transport state').calls := by
  have hvalue := WriteProgram.value_writeFully stalled hprogress chunk state
  obtain ⟨hall, -⟩ := (WriteProgram.accepted_writeFully stalled transport chunk state).2 hvalue
  refine ⟨((WriteProgram.writeFully stalled chunk).run transport state).state, ?_⟩
  unfold writeThen
  rw [WriteProgram.run_bind]
  dsimp only
  rw [hvalue, accepted_append, hall]

def finiteItems : ServerStreamSession → List SseItem
  | [] | .nothing _ :: _ => []
  | .event event :: session => .event event :: finiteItems session
  | .failure error :: _ => [.failure error]

def liveItems : ServerStreamSession → List SseItem
  | [] | .nothing false :: _ | .failure _ :: _ => []
  | .nothing true :: session => .heartbeat :: liveItems session
  | .event event :: session => .event event :: liveItems session

/-- The text of an item, from the two texts that a loop builds. -/
def builtText (buildEvent : StreamResponse → Result Bytes) (buildError : Error → Result Bytes) : SseItem → Result Bytes
  | .event event => buildEvent event
  | .heartbeat => .ok kSseHeartbeat
  | .failure error => buildError error

variable {buildEvent : StreamResponse → Result Bytes} {buildError : Error → Result Bytes}

/-- Whatever the transport takes at a time, the writer puts out the texts of these items. -/
def Writes (transport : HttpByteTransport σ) (buildEvent : StreamResponse → Result Bytes)
    (buildError : Error → Result Bytes) (writer : StreamWriter) (items : List SseItem) : Prop :=
  ∀ texts, List.Forall₂ (fun item text => builtText buildEvent buildError item = .ok text) items texts →
    ∀ state, accepted (writer.run transport state).calls = texts.flatten

theorem writes_done (result : Result Unit) : Writes transport buildEvent buildError (.done result) [] := by
  intro texts h state
  rw [forall₂_nil_left_iff.mp h]
  rfl

section

variable (hprogress : WriteProgram.Progresses transport)

include hprogress

theorem Writes.cons {writer : StreamWriter} {items : List SseItem}
    (h : Writes transport buildEvent buildError writer items) (item : SseItem) :
    Writes transport buildEvent buildError (writeThen stalled (builtText buildEvent buildError item) writer)
      (item :: items) := by
  intro texts htexts state
  obtain ⟨text, rest, htext, hrest, rfl⟩ := forall₂_cons_left_iff.mp htexts
  obtain ⟨state', hwritten⟩ := run_writeThen hprogress text writer state
  rw [htext, hwritten, h rest hrest, flatten_cons]

theorem writes_finiteLoop (session : ServerStreamSession) :
    Writes transport buildEvent buildError (finiteLoop stalled buildEvent buildError session) (finiteItems session) := by
  induction session with
  | nil => exact writes_done _
  | cons answer session ih =>
    cases answer with
    | event event => exact ih.cons hprogress (.event event)
    | nothing live => exact writes_done _
    | failure error => exact (writes_done _).cons hprogress (.failure error)

theorem writes_liveLoop (session : ServerStreamSession) :
    Writes transport buildEvent buildError (liveLoop stalled buildEvent session) (liveItems session) := by
  induction session with
  | nil => exact writes_done _
  | cons answer session ih =>
    cases answer with
    | event event => exact ih.cons hprogress (.event event)
    | nothing live =>
      cases live with
      | false => exact writes_done _
      | true => exact ih.cons hprogress .heartbeat
    | failure error => exact writes_done _

end

end Loops

/-! ## The four streams -/

/-- The streams that a client can ask for. -/
inductive SseStream where
  | restStreaming
  | restSubscribe
  | jsonRpc (id : Value) (isLive : Bool)

namespace SseStream

def codec : SseStream → SseCodec
  | .restStreaming | .restSubscribe => .rest
  | .jsonRpc id _ => .jsonRpc id

def isFinite : SseStream → Bool
  | .restStreaming => true
  | .restSubscribe => false
  | .jsonRpc _ isLive => !isLive

def writer (json : ProtoJsonWriter) (stream : SseStream) (session : ServerStreamSession) : StreamWriter :=
  match stream with
  | .restStreaming => RestTransport.streamingWriter json session
  | .restSubscribe => RestTransport.subscribeWriter json session
  | .jsonRpc id isLive => JsonRpcServerTransport.sseWriter json id isLive session

def items (stream : SseStream) (session : ServerStreamSession) : List SseItem :=
  if stream.isFinite then finiteItems session else liveItems session

/-- The id of the request can be printed. -/
def Ready (json : ProtoJsonWriter) : SseStream → Prop
  | .restStreaming | .restSubscribe => True
  | .jsonRpc id _ => (json.value id).isOk = true

variable {json : ProtoJsonWriter} {σ : Type} {transport : HttpByteTransport σ}

/-- A transport that makes progress takes the texts of all items. -/
theorem accepted_writer (hprogress : WriteProgram.Progresses transport) {stream : SseStream} (hready : stream.Ready json)
    {session : ServerStreamSession} {texts : List Bytes}
    (h : List.Forall₂ (fun item text => stream.codec.itemText json item = .ok text) (stream.items session) texts)
    (state : σ) : accepted ((stream.writer json session).run transport state).calls = texts.flatten := by
  cases stream with
  | restStreaming =>
    apply writes_finiteLoop hprogress
    exact h.imp fun item _ hitem => by cases item <;> exact hitem
  | restSubscribe =>
    apply writes_liveLoop hprogress
    exact h.imp fun item _ hitem => by cases item <;> exact hitem
  | jsonRpc id isLive =>
    cases hid : json.value id with
    | error e =>
      rw [Ready, hid] at hready
      cases hready
    | ok idJson =>
      have hlead := SseCodec.buildSseJsonRpcPrefix_ok hid
      have hbuilt : List.Forall₂ (fun item text => builtText
          (buildSseJsonRpcEvent json (kSseDataPrefix ++ SseCodec.envelopeLead idJson))
          (buildSseJsonRpcErrorEvent json id) item = .ok text) ((SseStream.jsonRpc id isLive).items session) texts := by
        refine h.imp fun item text hitem => ?_
        cases item with
        | event event =>
          simp only [codec, SseCodec.itemText, SseCodec.eventText, hlead] at hitem
          exact hitem
        | heartbeat | failure => exact hitem
      cases isLive with
      | false =>
        simp only [writer, sseWriter, Bool.false_eq_true, if_false, streamFiniteJsonRpcSseEvents, hlead]
        exact writes_finiteLoop hprogress session _ hbuilt state
      | true =>
        simp only [writer, sseWriter, if_true, streamJsonRpcSseEvents, hlead]
        exact writes_liveLoop hprogress session _ hbuilt state

end SseStream

/-- What the stream writers write is read back: a sequence of events, heartbeats and errors, in either format, with any
id, however its bytes are cut into chunks; and the four writers write such sequences. -/
theorem written_events_are_parsed {json : ProtoJsonWriter} (hcompact : json.Compact) :
    (∀ (codec : SseCodec) (items : List SseItem) (texts : List Bytes),
      List.Forall₂ (fun item text => codec.itemText json item = .ok text) items texts →
      ∃ events, List.Forall₂ (fun item events => codec.itemEvents json item = .ok events) items events ∧
        ∀ chunks : List Bytes, chunks.flatten = texts.flatten →
          SseParser.parse collect chunks {} [] = (.ok (), events.flatten)) ∧
    (∀ (stream : SseStream) (session : ServerStreamSession) (texts : List Bytes), stream.Ready json →
      List.Forall₂ (fun item text => stream.codec.itemText json item = .ok text) (stream.items session) texts →
      ∀ (σ : Type) (transport : HttpByteTransport σ), WriteProgram.Progresses transport → ∀ state,
        accepted ((stream.writer json session).run transport state).calls = texts.flatten) := by
  refine ⟨?_, ?_⟩
  · intro codec items texts htexts
    obtain ⟨events, hevents, hreads⟩ := SseCodec.reads_items hcompact htexts
    exact ⟨events, hevents, fun chunks hchunks => hreads.parse hchunks⟩
  · intro stream session texts hready htexts σ transport hprogress state
    exact SseStream.accepted_writer hprogress hready htexts state

/-- A printer for which every event and every error prints the same. -/
def samplePrinter : ProtoJsonWriter where
  streamResponse _ := .ok "\x7b\x7d"
  value
    | .nullValue => .ok "null"
    | _ => .ok "1"
  struct _ := .ok "\x7b\"message\":\"lost\"\x7d"

/-- A transport that takes every write. -/
def takeAll : HttpByteTransport Unit := fun _ payload => (.ok payload.length, ())

theorem samplePrinter_compact : samplePrinter.Compact := by
  refine ⟨?_, ?_, ?_⟩
  · rintro message text ⟨⟩
    decide
  · intro value text htext
    cases value <;> cases htext <;> decide
  · rintro message text ⟨⟩
    decide

theorem takeAll_progresses : WriteProgram.Progresses takeAll := by
  intro state text hne
  obtain ⟨size, hsize⟩ := Nat.exists_eq_add_one_of_ne_zero (mt length_eq_zero_iff.mp hne)
  exact ⟨size, congrArg Except.ok hsize⟩

/-- An event, a heartbeat and an error, cut inside a line and between two line feeds. -/
theorem sample_stream_is_parsed :
    ∃ events, List.Forall₂ (fun item events => SseCodec.rest.itemEvents samplePrinter item = .ok events)
        [.event .unset, .heartbeat, .failure (.internal "lost")] events ∧
      SseParser.parse collect
        ["data: \x7b", "\x7d\n", "\n: keep-alive\n\nevent: error\ndata: \x7b\"message\":\"lost\"\x7d\n\n"] {} [] =
          (.ok (), events.flatten) := by
  obtain ⟨events, hevents, hparse⟩ := (written_events_are_parsed samplePrinter_compact).1 .rest
    [.event .unset, .heartbeat, .failure (.internal "lost")]
    ["data: \x7b\x7d\n\n", ": keep-alive\n\n", "event: error\ndata: \x7b\"message\":\"lost\"\x7d\n\n"]
    (List.Forall₂.cons rfl (List.Forall₂.cons rfl (List.Forall₂.cons rfl List.Forall₂.nil)))
  exact ⟨events, hevents, hparse _ (by decide)⟩

end A2A.Server.Transport
