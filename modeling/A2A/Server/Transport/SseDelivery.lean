/-
# A stream from the server's session to the client's observer.
-/
import A2A.Client.SseSession
import A2A.Server.Transport.SseRoundTrip

namespace A2A.Server.Transport

open A2A.Foundation A2A.Core A2A.Client A2A.Client.SseSession List

/-! ## Decoding items -/

/-- What the observer of a client is to see of the items that were written. -/
def observerCalls (report : Error → Error) : List SseItem → List (ObserverCall StreamResponse)
  | [] => [.onCompleted]
  | .event event :: items => .onEvent event :: observerCalls report items
  | .heartbeat :: items => observerCalls report items
  | .failure error :: _ => [.onError (report error)]

/-- The client decodes what the server prints for the items; `report` is what it makes of an error. -/
structure Understands (decode : SseEvent → Result StreamResponse) (json : ProtoJsonWriter)
    (codec : SseCodec) (report : Error → Error) (items : List SseItem) : Prop where
  event : ∀ event, .event event ∈ items → ∀ data, codec.dataEvent json event = .ok data →
    decode data = .ok event
  failure : ∀ error, .failure error ∈ items → ∀ last, codec.errorEvent json error = .ok last →
    decode last = .error (report error)

variable {json : ProtoJsonWriter} {codec : SseCodec} {decode : SseEvent → Result StreamResponse}
  {report : Error → Error} {items : List SseItem}

theorem Understands.tail {item : SseItem} (h : Understands decode json codec report (item :: items)) :
    Understands decode json codec report items :=
  ⟨fun event hevent => h.event event (mem_cons_of_mem _ hevent),
    fun error herror => h.failure error (mem_cons_of_mem _ herror)⟩

theorem decodeAll_items (h : Understands decode json codec report items) {events : List (List SseEvent)}
    (hitems : List.Forall₂ (fun item events => codec.itemEvents json item = .ok events) items events) :
    (decodeAll decode events.flatten).2.map .onEvent ++ [lastCall (decodeAll decode events.flatten).1] =
      observerCalls report items := by
  induction hitems with
  | nil => rfl
  | @cons item shown items events hitem _ ih =>
    specialize ih h.tail
    cases item with
    | event event =>
      obtain ⟨data, hdata, rfl⟩ := ok_of_map hitem
      simpa [decodeAll, h.event event mem_cons_self data hdata, observerCalls] using ih
    | heartbeat =>
      cases hitem
      exact ih
    | failure error =>
      obtain ⟨last, hlast, rfl⟩ := ok_of_map hitem
      simp [decodeAll, h.failure error mem_cons_self last hlast, observerCalls, lastCall]

/-! ## From session to observer -/

/-- What `HttpSseSession` makes of an error that the server reported. -/
def remoteError (error : Error) : Error :=
  ((Error.remoteProtocol error.message).withTransport "http").withProtocolCode (error.protocolCode.getD [])

section Rest

variable {jsonToMessage : Bytes → Result StreamResponse} {stringMember : Bytes → Bytes → Option Bytes}

/-- The printer and the readers of the JSON texts fit together on the items. -/
structure JsonAgrees (json : ProtoJsonWriter) (jsonToMessage : Bytes → Result StreamResponse)
    (stringMember : Bytes → Bytes → Option Bytes) (items : List SseItem) : Prop where
  compact : json.Compact
  message : ∀ event, .event event ∈ items → ∀ text, json.streamResponse event = .ok text →
    jsonToMessage text = .ok event
  member : ∀ error, .failure error ∈ items → ∀ text, json.struct (sseErrorPayload error) = .ok text →
    stringMember text "message" = some error.message ∧ stringMember text "code" = error.protocolCode

theorem understands_rest (h : JsonAgrees json jsonToMessage stringMember items) (method endpoint : Bytes)
    (metadata : HttpClientResponse) :
    Understands ((httpSseSession jsonToMessage stringMember method endpoint).decode metadata) json .rest
      remoteError items := by
  constructor
  · intro event hevent data hdata
    simp only [SseCodec.dataEvent] at hdata
    split at hdata <;> cases hdata
    next text htext =>
      show (jsonToMessage text).mapError (fun error => error.withTransport "http") = _
      rw [h.message event hevent text htext]
      rfl
  · intro error herror last hlast
    obtain ⟨text, htext, rfl⟩ := ok_of_map hlast
    obtain ⟨hmessage, hcode⟩ := h.member error herror text htext
    show Except.error (buildRemoteStreamEventError stringMember text) = _
    rw [buildRemoteStreamEventError, hmessage, hcode]
    cases hprotocol : error.protocolCode <;> simp [remoteError, hprotocol] <;> rfl

/-- A REST stream from end to end. The items of the session can be printed and read back, and the
client gets the metadata of an event stream, the body that was written, and the report that it was
whole. Then, whatever the server's transport takes at a time and however the body is cut into chunks,
the observer sees the events in order and then one end, which is the error that was written, with its
message and code, or `OnCompleted`. -/
theorem rest_stream_reaches_observer {method endpoint : Bytes} {stream : SseStream}
    (hrest : stream.codec = .rest) {session : ServerStreamSession}
    (h : JsonAgrees json jsonToMessage stringMember (stream.items session)) {texts : List Bytes}
    (htexts : List.Forall₂ (fun item text => stream.codec.itemText json item = .ok text)
      (stream.items session) texts)
    {σ : Type} {transport : HttpByteTransport σ} (hprogress : WriteProgram.Progresses transport) (state : σ)
    {metadata : HttpClientResponse}
    (hmetadata : (httpSseSession jsonToMessage stringMember method endpoint).validate metadata = .ok false)
    {chunks : List Bytes}
    (hchunks : chunks.flatten = accepted ((stream.writer json session).run transport state).calls)
    (response : HttpClientResponse) :
    (drive (httpSseSession jsonToMessage stringMember method endpoint) none metadata chunks
      (.ok response)).calls.map Prod.snd = observerCalls remoteError (stream.items session) := by
  have hready : stream.Ready json := by
    cases stream with
    | restStreaming | restSubscribe => trivial
    | jsonRpc => cases hrest
  rw [SseStream.accepted_writer hprogress hready htexts state] at hchunks
  obtain ⟨events, hevents, hreads⟩ := SseCodec.reads_items h.compact htexts
  rw [hrest] at hevents
  have hframes : framesOf chunks.flatten = (.ok (), events.flatten) := hchunks ▸ hreads.read
  obtain ⟨last, hcalls, rfl⟩ := @drive_events _ _ (.ok response) chunks _ hmetadata
  rw [hcalls, read_keep, hframes, ← decodeAll_items (understands_rest h method endpoint metadata) hevents]
  generalize decodeAll _ events.flatten = decoded
  obtain ⟨decoding, responses⟩ := decoded
  cases decoding <;> rfl

end Rest

/-- A client that reads what `samplePrinter` prints. -/
def sampleMember (_ name : Bytes) : Option Bytes := if name = bytes "message" then some "lost" else none

@[inherit_doc sampleMember] def sampleSession : SseBinding StreamResponse :=
  httpSseSession (fun _ => .ok .unset) sampleMember "GET" "/"

/-- It reads the items of the stream back. -/
abbrev SampleAgrees (stream : SseStream) (session : ServerStreamSession) : Prop :=
  JsonAgrees samplePrinter (fun _ => .ok .unset) sampleMember (stream.items session)

theorem sampleAgrees {stream : SseStream} {session : ServerStreamSession}
    (hevents : ∀ event, .event event ∈ stream.items session → event = .unset)
    (herrors : ∀ error, .failure error ∈ stream.items session → error = .internal "lost") :
    SampleAgrees stream session := by
  refine ⟨samplePrinter_compact, ?_, ?_⟩
  · rintro event hevent text ⟨⟩
    rw [hevents event hevent]
  · rintro error herror text ⟨⟩
    rw [herrors error herror]
    exact ⟨rfl, rfl⟩

/-- What its observer sees of a stream whose bytes arrive one at a time. -/
def sampleCalls (stream : SseStream) (session : ServerStreamSession) : List (ObserverCall StreamResponse) :=
  (drive sampleSession none
    { statusCode := 200, headers := Table.put .empty (kContentTypeHeaderName, "text/event-stream") }
    ((accepted ((stream.writer samplePrinter session).run takeAll ()).calls).map fun byte => [byte])
    (.ok {})).calls.map Prod.snd

/-- A subscription with a time-out between its events, and a stream that ends with an error. -/
theorem sample_stream_reaches_observer :
    sampleCalls .restSubscribe [.event .unset, .nothing true, .event .unset, .nothing false] =
      [.onEvent .unset, .onEvent .unset, .onCompleted] ∧
    sampleCalls .restStreaming [.event .unset, .failure (.internal "lost")] =
      [.onEvent .unset, .onError (remoteError (.internal "lost"))] := by
  constructor
  · have hagrees : SampleAgrees .restSubscribe [.event .unset, .nothing true, .event .unset, .nothing false] :=
      sampleAgrees (by simp [SseStream.items, SseStream.isFinite, liveItems])
        (by simp [SseStream.items, SseStream.isFinite, liveItems])
    exact rest_stream_reaches_observer rfl hagrees (.cons rfl (.cons rfl (.cons rfl .nil)))
      takeAll_progresses () rfl (by simp [← List.flatMap_def]) {}
  · have hagrees : SampleAgrees .restStreaming [.event .unset, .failure (.internal "lost")] :=
      sampleAgrees (by simp [SseStream.items, SseStream.isFinite, finiteItems])
        (by simp [SseStream.items, SseStream.isFinite, finiteItems])
    exact rest_stream_reaches_observer rfl hagrees (.cons rfl (.cons rfl .nil)) takeAll_progresses () rfl
      (by simp [← List.flatMap_def]) {}

end A2A.Server.Transport
