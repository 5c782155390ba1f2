/-
# Streams that end in an error.
-/
import A2A.Server.Transport.SseRoundTrip

namespace A2A.Server.Transport

open A2A.Foundation A2A.Core A2A.Client SseCodec JsonRpcServerTransport List

/-- The session yields these events and then this error; only timed calls time out. -/
inductive Yields (timed : Bool) : ServerStreamSession → List StreamResponse → Error → Prop
  | failure (error : Error) (session : ServerStreamSession) : Yields timed (.failure error :: session) [] error
  | event {session : ServerStreamSession} {events : List StreamResponse} {error : Error} (event : StreamResponse)
      (h : Yields timed session events error) : Yields timed (.event event :: session) (event :: events) error
  | timeout {session : ServerStreamSession} {events : List StreamResponse} {error : Error} (htimed : timed = true)
      (h : Yields timed session events error) : Yields timed (.nothing true :: session) events error

/-! ## Printing -/

theorem exists_ok_of_isOk {α : Type} {result : Result α} (h : result.isOk) : ∃ value, result = .ok value := by
  cases result with
  | error e => nomatch h
  | ok value => exact ⟨value, rfl⟩

namespace SseStream

variable {json : ProtoJsonWriter} {stream : SseStream}

/-- The id, the events and the error can be printed. -/
def Prints (json : ProtoJsonWriter) (stream : SseStream) (events : List StreamResponse) (error : Error) : Prop :=
  stream.Ready json ∧ (∀ event ∈ events, (json.streamResponse event).isOk = true) ∧
    (stream.codec.errorText json error).isOk = true

variable {event : StreamResponse} {codec : SseCodec} {events : List StreamResponse} {error : Error}
    {session : ServerStreamSession}

theorem exists_eventText (hready : stream.Ready json) (hevent : (json.streamResponse event).isOk) :
    ∃ text, stream.codec.eventText json event = .ok text := by
  obtain ⟨eventJson, hjson⟩ := exists_ok_of_isOk hevent
  cases stream with
  | restStreaming | restSubscribe => exact ⟨_, by simp only [codec, eventText, buildSseEvent, hjson]; rfl⟩
  | jsonRpc id isLive =>
    obtain ⟨idJson, hid⟩ := exists_ok_of_isOk hready
    exact ⟨_, eventText_jsonRpc hid hjson⟩

theorem isOk_of_dataEvent {data : SseEvent} (h : codec.dataEvent json event = .ok data) :
    (json.streamResponse event).isOk := by
  unfold dataEvent at h
  cases hjson : json.streamResponse event with
  | error e =>
    rw [hjson] at h
    cases h
  | ok eventJson => rfl

theorem isOk_of_dataEvents {data : List SseEvent}
    (h : Forall₂ (fun event data => codec.dataEvent json event = .ok data) events data) :
    ∀ event ∈ events, (json.streamResponse event).isOk := by
  induction h with
  | nil => exact fun event hevent => nomatch hevent
  | cons hfirst _ ih => exact forall_mem_cons.mpr ⟨isOk_of_dataEvent hfirst, ih⟩

theorem isOk_of_errorEvent {last : SseEvent} (h : codec.errorEvent json error = .ok last) :
    (codec.errorText json error).isOk := by
  cases codec with
  | rest =>
    unfold errorText buildSseErrorEvent
    cases hprint : json.struct (sseErrorPayload error) with
    | error e =>
      rw [errorEvent, hprint] at h
      cases h
    | ok payload => rfl
  | jsonRpc id =>
    cases hprint : json.struct (jsonRpcErrorEnvelope (jsonRpcCodeFromError error) error.message id (some error)) with
    | error e =>
      rw [errorEvent, hprint] at h
      cases h
    | ok envelope =>
      simp only [errorText, buildSseJsonRpcErrorEvent, hprint]
      rfl

/-! ## What is written of a session that fails -/

/-- The loop over a finite session: the events, and one for the error. -/
theorem reads_finiteItems (hcompact : json.Compact) (h : Yields false session events error)
    (hevents : ∀ event ∈ events, ∃ text, codec.eventText json event = .ok text)
    (herror : ∃ text, codec.errorText json error = .ok text) :
    ∃ texts data last, Forall₂ (fun item text => codec.itemText json item = .ok text) (finiteItems session) texts ∧
      Forall₂ (fun event data => codec.dataEvent json event = .ok data) events data ∧
      codec.errorEvent json error = .ok last ∧ Reads texts.flatten (data ++ [last]) := by
  induction h with
  | failure error session =>
    obtain ⟨text, htext⟩ := herror
    obtain ⟨last, hlast, hreads⟩ := reads_errorText hcompact htext
    refine ⟨[text], [], last, Forall₂.cons htext Forall₂.nil, Forall₂.nil, hlast, ?_⟩
    rw [flatten_singleton]
    exact hreads
  | event event h ih =>
    obtain ⟨hfirst, hrest⟩ := forall_mem_cons.mp hevents
    obtain ⟨text, htext⟩ := hfirst
    obtain ⟨first, hdata, hreads⟩ := reads_eventText hcompact htext
    obtain ⟨texts, data, last, htexts, hdatas, hlast, hreadsRest⟩ := ih hrest herror
    exact ⟨text :: texts, first :: data, last, Forall₂.cons htext htexts, Forall₂.cons hdata hdatas, hlast,
      hreads.append hreadsRest⟩
  | timeout htimed h ih => nomatch htimed

/-- A live session is read up to its failure. -/
theorem reads_liveItems (hcompact : json.Compact) {timed : Bool} (h : Yields timed session events error)
    (hevents : ∀ event ∈ events, ∃ text, codec.eventText json event = .ok text) :
    ∃ texts data, Forall₂ (fun item text => codec.itemText json item = .ok text) (liveItems session) texts ∧
      Forall₂ (fun event data => codec.dataEvent json event = .ok data) events data ∧ Reads texts.flatten data := by
  induction h with
  | failure error session => exact ⟨[], [], Forall₂.nil, Forall₂.nil, Reads.nil⟩
  | event event h ih =>
    obtain ⟨hfirst, hrest⟩ := forall_mem_cons.mp hevents
    obtain ⟨text, htext⟩ := hfirst
    obtain ⟨first, hdata, hreads⟩ := reads_eventText hcompact htext
    obtain ⟨texts, data, htexts, hdatas, hreadsRest⟩ := ih hrest
    exact ⟨text :: texts, first :: data, Forall₂.cons htext htexts, Forall₂.cons hdata hdatas,
      hreads.append hreadsRest⟩
  | timeout htimed h ih =>
    obtain ⟨texts, data, htexts, hdatas, hreadsRest⟩ := ih hevents
    exact ⟨kSseHeartbeat :: texts, data, Forall₂.cons rfl htexts, hdatas, Reads.heartbeat.append hreadsRest⟩

theorem accepted_writer_of_not_ready {σ : Type} {transport : HttpByteTransport σ} (hready : ¬ stream.Ready json)
    (session : ServerStreamSession) (state : σ) :
    accepted ((stream.writer json session).run transport state).calls = [] := by
  cases stream with
  | restStreaming | restSubscribe => exact absurd trivial hready
  | jsonRpc id isLive =>
    cases hid : json.value id with
    | ok idJson =>
      rw [Ready, hid] at hready
      exact absurd rfl hready
    | error e =>
      have hlead := buildSseJsonRpcPrefix_error hid
      cases isLive with
      | false =>
        simp only [writer, sseWriter, Bool.false_eq_true, if_false, streamFiniteJsonRpcSseEvents, hlead]
        rfl
      | true =>
        simp only [writer, sseWriter, if_true, streamJsonRpcSseEvents, hlead]
        rfl

/-- The client sees the events of the session and then its error. -/
def ReportsFailure (json : ProtoJsonWriter) (stream : SseStream) (events : List StreamResponse) (error : Error)
    (written : Bytes) : Prop :=
  ∃ data last, Forall₂ (fun event data => stream.codec.dataEvent json event = .ok data) events data ∧
    stream.codec.errorEvent json error = .ok last ∧
    ∀ chunks : List Bytes, chunks.flatten = written → SseParser.parse collect chunks {} [] = (.ok (), data ++ [last])

end SseStream

open SseStream

/-- A stream that fails after some events: the client sees the events and the error exactly if the stream is written
by a loop over a finite session, and everything can be printed. -/
theorem failure_is_reported_iff {json : ProtoJsonWriter} (hcompact : json.Compact) {stream : SseStream}
    {session : ServerStreamSession} {events : List StreamResponse} {error : Error}
    (hyields : Yields (!stream.isFinite) session events error) {σ : Type} {transport : HttpByteTransport σ}
    (hprogress : WriteProgram.Progresses transport) (state : σ) :
    stream.ReportsFailure json events error (accepted ((stream.writer json session).run transport state).calls) ↔
      stream.isFinite = true ∧ stream.Prints json events error := by
  constructor
  · rintro ⟨data, last, hdata, hlast, hparse⟩
    have hprinted := isOk_of_dataEvents hdata
    have hready : stream.Ready json := by
      by_contra hnot
      have hempty := hparse [] (accepted_writer_of_not_ready hnot session state).symm
      have hnone : ([] : List SseEvent) = data ++ [last] := (Prod.mk.inj hempty).2
      exact append_ne_nil_of_right_ne_nil data (cons_ne_nil last []) hnone.symm
    refine ⟨?_, hready, hprinted, isOk_of_errorEvent hlast⟩
    by_contra hlive
    obtain ⟨texts, data', htexts, hdata', hreads⟩ := reads_liveItems hcompact hyields
      fun event hevent => exists_eventText hready (hprinted event hevent)
    have hitems : stream.items session = liveItems session := if_neg hlive
    have hwritten := accepted_writer hprogress hready (hitems ▸ htexts) state
    -- the same bytes, read with and without the event for the error
    have hsame := (hreads.parse rfl).symm.trans (hparse texts hwritten.symm)
    have hlength := congrArg length (Prod.mk.inj hsame).2
    rw [length_append, ← hdata'.length_eq, ← hdata.length_eq, length_singleton] at hlength
    omega
  · rintro ⟨hfinite, hready, hprinted, herror⟩
    rw [hfinite] at hyields
    obtain ⟨texts, data, last, htexts, hdata, hlast, hreads⟩ := reads_finiteItems hcompact hyields
      (fun event hevent => exists_eventText hready (hprinted event hevent)) (exists_ok_of_isOk herror)
    have hitems : stream.items session = finiteItems session := if_pos hfinite
    have hwritten := accepted_writer hprogress hready (hitems ▸ htexts) state
    exact ⟨data, last, hdata, hlast, fun chunks hchunks => hreads.parse (hchunks.trans hwritten)⟩

/-- A finite stream that fails after one event, over HTTP+JSON. -/
theorem finite_failure_is_reported :
    SseStream.ReportsFailure samplePrinter .restStreaming [.unset] (.internal "lost")
      (accepted ((SseStream.restStreaming.writer samplePrinter
        [.event .unset, .failure (.internal "lost")]).run takeAll ()).calls) :=
  (failure_is_reported_iff samplePrinter_compact (Yields.event _ (Yields.failure _ _)) takeAll_progresses ()).mpr
    ⟨rfl, trivial, fun _ _ => rfl, rfl⟩

/-- A live stream that fails after one event, over HTTP+JSON and over JSON-RPC: the client sees one event, and a stream
that ended as it should. -/
theorem live_failure_is_lost :
    Yields true [.event .unset, .failure (.internal "lost")] [.unset] (.internal "lost") ∧
      SseParser.parse collect [accepted ((SseStream.restSubscribe.writer samplePrinter
        [.event .unset, .failure (.internal "lost")]).run takeAll ()).calls] {} [] = (.ok (), [⟨[], "\x7b\x7d"⟩]) ∧
      SseParser.parse collect [accepted (((SseStream.jsonRpc .nullValue true).writer samplePrinter
        [.event .unset, .failure (.internal "lost")]).run takeAll ()).calls] {} [] =
          (.ok (), [⟨[], "\x7b\"jsonrpc\":\"2.0\",\"id\":null,\"result\":\x7b\x7d\x7d"⟩]) := by
  refine ⟨Yields.event _ (Yields.failure _ _), ?_, ?_⟩
  · decide +kernel
  · decide +kernel

end A2A.Server.Transport
