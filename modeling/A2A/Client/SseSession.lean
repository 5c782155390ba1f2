/-
# What a stream observer gets to see (`http_json_streaming.cpp`, `json_rpc_streaming.cpp`).
-/
import A2A.Client.SseParser
import A2A.Server.Transport.RequestHeaders

namespace A2A.Client

open A2A.Foundation A2A.Core List
open A2A.Server.Transport (HttpHeaders findHeaderValue isMediaType isJsonContentType kContentTypeHeaderName
  kVersionHeaderName)

/-- `HttpClientResponse`. -/
structure HttpClientResponse where
  statusCode : Int := 0
  headers : HttpHeaders := .empty
  body : Bytes := []

/-! ## The two bindings -/

/-- What a session does in its own way; `validate` tells whether the body is collected. -/
structure SseBinding (α : Type) where
  validate : HttpClientResponse → Result Bool
  firstBody : HttpClientResponse → Bytes
  orderError : Error
  decode : HttpClientResponse → SseEvent → Result α
  bodyError : HttpClientResponse → Error

/-- `ValidateResponseVersion`. -/
def validateResponseVersion (transport : Bytes) (response : HttpClientResponse) : Result Unit :=
  match findHeaderValue response.headers kVersionHeaderName with
  | none => .ok ()
  | some version =>
    if Version.isSupported (version.map byteChar) then .ok ()
    else .error (((Error.unsupportedVersion "Server returned unsupported A2A-Version header").withTransport
      transport).withProtocolCode version)

/-- `HasSseContentType`. -/
def hasSseContentType (headers : HttpHeaders) : Bool :=
  (findHeaderValue headers kContentTypeHeaderName).any fun contentType => isMediaType contentType "text/event-stream"

/-- `HasJsonContentType`. -/
def hasJsonContentType (headers : HttpHeaders) : Bool :=
  (findHeaderValue headers kContentTypeHeaderName).any isJsonContentType

/-- A status from `kHttpOkMin` to `kHttpOkMax`. -/
def isSuccess (status : Int) : Bool := 200 ≤ status && status ≤ 299

section Bindings

variable {α : Type} (jsonToMessage : Bytes → Result α) (stringMember : Bytes → Bytes → Option Bytes)
  (parseResponseResult : HttpClientResponse → Bytes → Result Bytes)

/-- `BuildRemoteStreamEventError`; `stringMember` finds a text member. -/
def buildRemoteStreamEventError (payload : Bytes) : Error :=
  let error := (Error.remoteProtocol "Remote stream reported error event").withTransport "http"
  let error := (stringMember payload "code").elim error error.withProtocolCode
  match stringMember payload "message" with
  | some message =>
    ((Error.remoteProtocol message).withTransport "http").withProtocolCode (error.protocolCode.getD [])
  | none => error

/-- `BuildHttpError`. -/
def buildHttpError (method endpoint : Bytes) (response : HttpClientResponse) : Error :=
  let text := bytes "HTTP request failed for " ++ method ++ bytes " " ++ endpoint ++
    if response.body.isEmpty then [] else bytes ": " ++ response.body
  let error := ((Error.remoteProtocol text).withTransport "http").withHttpStatus response.statusCode
  if response.body.head? = some 123 then (stringMember response.body "code").elim error error.withProtocolCode else error

/-- `HttpSseSession`. -/
def httpSseSession (method endpoint : Bytes) : SseBinding α where
  validate response := do
    validateResponseVersion "http" response
    if !isSuccess response.statusCode then pure true
    else if hasSseContentType response.headers then pure false
    else .error (((Error.remoteProtocol "HTTP stream response must use text/event-stream").withTransport
      "http").withHttpStatus response.statusCode)
  firstBody response := response.body
  orderError :=
    (Error.remoteProtocol "HTTP stream metadata must be validated before body chunks").withTransport "http"
  decode _ event :=
    if event.event = bytes "error" then .error (buildRemoteStreamEventError stringMember event.data)
    else (jsonToMessage event.data).mapError fun error => error.withTransport "http"
  bodyError := buildHttpError stringMember method endpoint

/-- `BuildJsonRpcEnvelopeError`. -/
def buildJsonRpcEnvelopeError (message : Bytes) (response : HttpClientResponse) : Error :=
  ((Error.remoteProtocol message).withTransport "jsonrpc").withHttpStatus response.statusCode

/-- `JsonRpcSseSession`. -/
def jsonRpcSseSession (requestId : Bytes) : SseBinding α where
  validate response := do
    validateResponseVersion "jsonrpc" response
    if hasJsonContentType response.headers then pure true
    else if !isSuccess response.statusCode then
      .error (buildJsonRpcEnvelopeError "JSON-RPC stream returned non-success HTTP status" response)
    else if hasSseContentType response.headers then pure false
    else .error (buildJsonRpcEnvelopeError "JSON-RPC stream response must use text/event-stream" response)
  firstBody _ := []
  orderError :=
    (Error.remoteProtocol "JSON-RPC stream metadata must be validated before body chunks").withTransport "jsonrpc"
  decode metadata event := do
    let result ← parseResponseResult { statusCode := metadata.statusCode, body := event.data } requestId
    (jsonToMessage result).mapError fun error => (error.withTransport "jsonrpc").withHttpStatus metadata.statusCode
  bodyError response :=
    match parseResponseResult response requestId with
    | .error e => e
    | .ok _ =>
      if !isSuccess response.statusCode then
        buildJsonRpcEnvelopeError "JSON-RPC stream returned non-success HTTP status" response
      else buildJsonRpcEnvelopeError "JSON-RPC streaming success response must use text/event-stream" response

end Bindings

/-! ## The session -/

/-- A call of the `StreamObserver`. -/
inductive ObserverCall (α : Type) where
  | onEvent (response : α)
  | onError (error : Error)
  | onCompleted

/-- What the observer has seen, after so many loads of the flag. -/
structure Observed (α : Type) where
  loads : Nat := 0
  calls : List (Nat × ObserverCall α) := []

namespace Observed

variable {α : Type}

/-- What the next load of `cancel_requested` sees. -/
def cancelRequested (cancelAt : Option Nat) (observed : Observed α) : Bool := cancelAt.any (· ≤ observed.loads)

@[simp] theorem cancelRequested_none (observed : Observed α) : observed.cancelRequested none = false := rfl

/-- One more load of the flag. -/
def load (observed : Observed α) : Observed α := { observed with loads := observed.loads + 1 }

/-- A call of the observer, dated by the loads before it. -/
def notify (observed : Observed α) (call : ObserverCall α) : Observed α :=
  { observed with calls := observed.calls ++ [(observed.loads, call)] }

end Observed

/-- `HttpSseSession` and `JsonRpcSseSession`. -/
structure SseSession where
  metadata : HttpClientResponse := {}
  metadataValidated : Bool := false
  collecting : Bool := false
  body : Bytes := []
  parser : SseParser := {}

namespace SseSession

section Session

variable {α : Type} (binding : SseBinding α) (cancelAt : Option Nat)

/-- `ValidateMetadata`. -/
def validateMetadata (session : SseSession) (response : HttpClientResponse) : Result Unit × SseSession :=
  match binding.validate response with
  | .error e => (.error e, { session with metadata := response })
  | .ok collecting =>
    (.ok (), { session with
      metadata := response, metadataValidated := true, collecting, body := binding.firstBody response })

/-- `DispatchEvent`. -/
def dispatch (metadata : HttpClientResponse) : EventCallback (Observed α) := fun observed event =>
  if observed.cancelRequested cancelAt then (.ok (), observed.load)
  else
    match binding.decode metadata event with
    | .ok response => (.ok (), observed.load.notify (.onEvent response))
    | .error e => (.error e, observed.load)

/-- `HandleChunk`. -/
def handleChunk (session : SseSession) (chunk : Bytes) (observed : Observed α) : Result Unit × SseSession × Observed α :=
  if observed.cancelRequested cancelAt then (.ok (), session, observed.load)
  else if !session.metadataValidated then (.error binding.orderError, session, observed.load)
  else if session.collecting then (.ok (), { session with body := session.body ++ chunk }, observed.load)
  else
    let (answer, parser, observed) := session.parser.feed (dispatch binding cancelAt session.metadata) chunk observed.load
    (answer, { session with parser }, observed)

/-- `Complete`, once the metadata is there. -/
def finishStream (session : SseSession) (response : HttpClientResponse) (observed : Observed α) : Observed α :=
  if session.collecting then
    observed.notify (.onError (binding.bodyError
      { session.metadata with body := if session.body.isEmpty then response.body else session.body }))
  else
    let (answer, _, observed) := session.parser.finish (dispatch binding cancelAt session.metadata) observed
    if observed.cancelRequested cancelAt then observed.load
    else
      match answer with
      | .error e => observed.load.notify (.onError e)
      | .ok _ => observed.load.notify .onCompleted

/-- `Complete`. -/
def complete (session : SseSession) (outcome : Result HttpClientResponse) (observed : Observed α) : Observed α :=
  if observed.cancelRequested cancelAt then observed.load
  else
    match outcome with
    | .error e => observed.load.notify (.onError e)
    | .ok response =>
      match if session.metadataValidated then (.ok (), session) else session.validateMetadata binding response with
      | (.error e, _) => observed.load.notify (.onError e)
      | (.ok _, session) => session.finishStream binding cancelAt response observed.load

/-- The transport passes the body on, up to the first refused chunk, and completes. -/
def driveChunks (outcome : Result HttpClientResponse) : List Bytes → SseSession → Observed α → Observed α
  | [], session, observed => session.complete binding cancelAt outcome observed
  | chunk :: chunks, session, observed =>
    match session.handleChunk binding cancelAt chunk observed with
    | (.error e, session, observed) => session.complete binding cancelAt (.error e) observed
    | (.ok _, session, observed) => driveChunks outcome chunks session observed

/-- A whole stream: metadata, the chunks of the body, and how the transport ends. -/
def drive (metadata : HttpClientResponse) (chunks : List Bytes) (outcome : Result HttpClientResponse) : Observed α :=
  match validateMetadata binding {} metadata with
  | (.error e, session) => session.complete binding cancelAt (.error e) {}
  | (.ok _, session) => driveChunks binding cancelAt outcome chunks session {}

end Session

end SseSession

/-! ## Callbacks of the parser -/

/-- A line does not reach the callback, or is blank and hands it one event. -/
theorem consumeLine_cases (line : Bytes) (frame : SseFrame) :
    (∃ answer after, ∀ {σ : Type} (onEvent : EventCallback σ) (state : σ),
      consumeLine onEvent line frame state = (answer, after, state)) ∨
    line = [] ∧ ∃ event, ∀ {σ : Type} (onEvent : EventCallback σ) (state : σ),
      consumeLine onEvent line frame state = ((onEvent state event).1, {}, (onEvent state event).2) := by
  unfold consumeLine dispatchEvent
  by_cases hblank : line.isEmpty
  · simp only [if_pos hblank]
    by_cases hopen : (frame.currentData.isEmpty && frame.currentEvent.isEmpty)
    · simp only [if_pos hopen]
      exact .inl ⟨_, _, fun _ _ => rfl⟩
    · simp only [if_neg hopen]
      exact .inr ⟨List.isEmpty_iff.mp hblank, _, fun _ _ => rfl⟩
  · simp only [if_neg hblank]
    refine .inl ?_
    by_cases hcomment : line.head? = some 58
    · simp only [if_pos hcomment]
      exact ⟨_, _, fun _ _ => rfl⟩
    · simp only [if_neg hcomment]
      cases breakOn (bytes ":") line with
      | none => exact ⟨_, _, fun _ _ => rfl⟩
      | some parts =>
        dsimp only
        split_ifs <;> exact ⟨_, _, fun _ _ => rfl⟩

/-- `Finish` does not reach the callback: what it reads is not a blank line. -/
theorem finish_silent (parser : SseParser) :
    ∃ answer after, ∀ {σ : Type} (onEvent : EventCallback σ) (state : σ),
      parser.finish onEvent state = (answer, after, state) := by
  unfold SseParser.finish
  by_cases hempty : parser.lineBuffer.isEmpty
  · simp only [if_pos hempty]
    exact ⟨_, _, fun _ _ => rfl⟩
  · simp only [if_neg hempty]
    rcases consumeLine_cases parser.lineBuffer parser.frame with ⟨answer, after, hline⟩ | ⟨hblank, -⟩
    · simp only [hline]
      cases answer with
      | error | ok => exact ⟨_, _, fun _ _ => rfl⟩
    · exact absurd (List.isEmpty_iff.mpr hblank) hempty

section Related

variable {σ τ : Type} {onEvent : EventCallback σ} {onEvent' : EventCallback τ} {R : σ → τ → Prop}

/-- Two callbacks give the same answers and keep their states related. -/
def Simulates (R : σ → τ → Prop) (onEvent : EventCallback σ) (onEvent' : EventCallback τ) : Prop :=
  ∀ state state' event, R state state' →
    (onEvent state event).1 = (onEvent' state' event).1 ∧ R (onEvent state event).2 (onEvent' state' event).2

variable {state : σ} {state' : τ}

/-- Under related callbacks the parser does the same, line by line. -/
theorem consumeLines_related (h : Simulates R onEvent onEvent') (lines : List Bytes) (frame : SseFrame)
    (hstate : R state state') :
    ∃ answer after next next', consumeLines onEvent lines frame state = (answer, after, next) ∧
      consumeLines onEvent' lines frame state' = (answer, after, next') ∧ R next next' := by
  induction lines generalizing frame state state' with
  | nil => exact ⟨_, _, _, _, rfl, rfl, hstate⟩
  | cons line lines ih =>
    simp only [consumeLines]
    rcases consumeLine_cases line frame with ⟨answer, after, hline⟩ | ⟨-, event, hline⟩
    · simp only [hline]
      cases answer with
      | error e => exact ⟨_, _, _, _, rfl, rfl, hstate⟩
      | ok done => exact ih after hstate
    · obtain ⟨hanswer, hnext⟩ := h state state' event hstate
      simp only [hline, ← hanswer]
      cases (onEvent state event).1 with
      | error e => exact ⟨_, _, _, _, rfl, rfl, hnext⟩
      | ok done => exact ih {} hnext

theorem feed_related (h : Simulates R onEvent onEvent') (parser : SseParser) (chunk : Bytes) (hstate : R state state') :
    ∃ answer after next next', parser.feed onEvent chunk state = (answer, after, next) ∧
      parser.feed onEvent' chunk state' = (answer, after, next') ∧ R next next' := by
  obtain ⟨answer, frame, next, next', hlines, hlines', hnext⟩ := consumeLines_related h
    ((splitOn [10] (parser.lineBuffer ++ chunk)).dropLast.map removeCarriageReturn) parser.frame hstate
  simp only [SseParser.feed, hlines, hlines']
  cases answer with
  | error | ok => exact ⟨_, _, _, _, rfl, rfl, hnext⟩

end Related

/-! ## The frames of a body -/

section Frames

variable {α : Type} (decode : SseEvent → Result α)

/-- The frames of a text up to the first failing line, and whether all frames are whole. -/
def framesOf (text : Bytes) : Result Unit × List SseEvent := read collect {} text []

/-- The responses up to the first frame that cannot be decoded. -/
def delivered : List SseEvent → List α
  | [] => []
  | frame :: frames =>
    match decode frame with
    | .ok response => response :: delivered frames
    | .error _ => []

/-- The callback that decodes the events and keeps them. -/
def keep : EventCallback (List α) := fun responses event =>
  match decode event with
  | .ok response => (.ok (), responses ++ [response])
  | .error e => (.error e, responses)

/-- All frames can be decoded. -/
def Decodes (frames : List SseEvent) : Prop := ∀ frame ∈ frames, ∃ response, decode frame = .ok response

/-- Decode the frames up to the first that fails. -/
def decodeAll : List SseEvent → Result Unit × List α
  | [] => (.ok (), [])
  | frame :: frames =>
    match decode frame with
    | .error e => (.error e, [])
    | .ok response => ((decodeAll frames).1, response :: (decodeAll frames).2)

/-- Decoding succeeds when all frames decode, and delivers up to the first that does not. -/
theorem decodeAll_spec (frames : List SseEvent) : (decodeAll decode frames).2 = delivered decode frames ∧
    ((decodeAll decode frames).1 = .ok () ↔ Decodes decode frames) := by
  induction frames with
  | nil => exact ⟨rfl, by simp [decodeAll, Decodes]⟩
  | cons frame frames ih =>
    cases hdecode : decode frame with
    | error e => simp [decodeAll, delivered, Decodes, hdecode]
    | ok response => simpa [decodeAll, delivered, Decodes, hdecode] using ih

/-- Reading lines with the decoder is reading them and decoding the frames. -/
theorem consumeLines_keep (lines : List Bytes) (frame : SseFrame) (before : List SseEvent)
    (responses : List α) :
    ∃ answer after frames after', consumeLines collect lines frame before = (answer, after, before ++ frames) ∧
      consumeLines (keep decode) lines frame responses =
        ((decodeAll decode frames).1.bind fun _ => answer, after', responses ++ (decodeAll decode frames).2) ∧
      ((decodeAll decode frames).1 = .ok () → after' = after) := by
  induction lines generalizing frame before responses with
  | nil => exact ⟨.ok (), frame, [], frame, by simp [consumeLines], by simp [consumeLines, decodeAll, Except.bind],
      fun _ => rfl⟩
  | cons line lines ih =>
    simp only [consumeLines]
    rcases consumeLine_cases line frame with ⟨answer, after, hline⟩ | ⟨-, event, hline⟩
    · simp only [hline]
      cases answer with
      | error e => exact ⟨.error e, after, [], after, by simp, by simp [decodeAll, Except.bind], fun _ => rfl⟩
      | ok done => exact ih after before responses
    · simp only [hline, collect]
      cases hdecode : decode event with
      | error e =>
        obtain ⟨answer, after, frames, -, hcollect, -⟩ := ih {} (before ++ [event]) responses
        refine ⟨answer, after, event :: frames, {}, by simpa using hcollect, ?_, by simp [decodeAll, hdecode]⟩
        simp [keep, hdecode, decodeAll, Except.bind]
      | ok response =>
        obtain ⟨answer, after, frames, after', hcollect, hkeep, hsame⟩ :=
          ih {} (before ++ [event]) (responses ++ [response])
        refine ⟨answer, after, event :: frames, after', by simpa using hcollect, ?_, ?_⟩
        · simpa [keep, hdecode, decodeAll] using hkeep
        · simpa [decodeAll, hdecode] using hsame

/-- Reading with a decoder is decoding the frames. -/
theorem read_keep (text : Bytes) : read (keep decode) {} text [] =
    ((decodeAll decode (framesOf text).2).1.bind fun _ => (framesOf text).1,
      (decodeAll decode (framesOf text).2).2) := by
  obtain ⟨answer, after, frames, after', hcollect, hkeep, hsame⟩ :=
    consumeLines_keep decode (linesOf text) {} [] []
  have hframes : (framesOf text).2 = frames := by
    unfold framesOf read
    rw [hcollect]
    cases answer <;> rfl
  rw [hframes]
  unfold framesOf read
  rw [hcollect, hkeep]
  generalize decodeAll decode frames = decoded at hsame
  obtain ⟨decoding, responses⟩ := decoded
  cases decoding with
  | error e => rfl
  | ok done =>
    obtain rfl := hsame rfl
    cases answer <;> rfl

end Frames

/-! ## A stream that is not cancelled -/

open Observed

namespace SseSession

section Driven

variable {α : Type} {binding : SseBinding α} {cancelAt : Option Nat} {outcome : Result HttpClientResponse}
  {session : SseSession} {observed : Observed α} {responses : List α} {succeeded : Prop} {chunk : Bytes}
  {chunks : List Bytes} {e : Error}

/-- The observer has seen these events and nothing else. -/
def Seen (observed : Observed α) (responses : List α) : Prop :=
  observed.calls.map Prod.snd = responses.map .onEvent

/-- While nobody cancels, the session's callback is the decoder's. -/
theorem dispatch_simulates (metadata : HttpClientResponse) :
    Simulates Seen (dispatch binding none metadata) (keep (binding.decode metadata)) := by
  intro observed responses event hseen
  simp only [dispatch, keep, cancelRequested_none, Bool.false_eq_true, if_false]
  cases binding.decode metadata event with
  | error e => exact ⟨rfl, hseen⟩
  | ok response => exact ⟨rfl, by simpa [Seen, Observed.notify, Observed.load] using hseen⟩

/-- A stream ends with one call, which is `OnCompleted` exactly if nothing failed. -/
def Ends (observed : Observed α) (responses : List α) (succeeded : Prop) : Prop :=
  ∃ last, observed.calls.map Prod.snd = responses.map .onEvent ++ [last] ∧
    (last = .onCompleted ∧ succeeded ∨ (∃ e, last = .onError e) ∧ ¬ succeeded)

theorem Seen.ends_error (h : Seen observed responses) (hfailed : ¬ succeeded) :
    Ends (observed.notify (.onError e)) responses succeeded :=
  ⟨.onError e, by simpa [Observed.notify, Seen] using h, .inr ⟨⟨e, rfl⟩, hfailed⟩⟩

theorem complete_error (h : Seen observed responses) (hfailed : ¬ succeeded) :
    Ends (session.complete binding none (.error e) observed) responses succeeded := by
  have hload : Seen observed.load responses := h
  exact hload.ends_error hfailed

/-- The last call of an observer, by how the body was read. -/
def lastCall : Result Unit → ObserverCall α
  | .ok _ => .onCompleted
  | .error e => .onError e

/-- The observer has seen what reading the body gives, and one end; the end is an error if the
transport fails. -/
def Follows (observed : Observed α) (outcome : Result HttpClientResponse) (body : Result Unit × List α) :
    Prop :=
  ∃ last, observed.calls.map Prod.snd = body.2.map .onEvent ++ [last] ∧
    match outcome with
    | .ok _ => last = lastCall body.1
    | .error _ => ∃ e, last = .onError e

theorem Seen.follows_error (h : Seen observed responses) :
    Follows (observed.notify (.onError e)) outcome (.error e, responses) := by
  refine ⟨.onError e, by simpa [Observed.notify, Seen] using h, ?_⟩
  cases outcome with
  | error => exact ⟨e, rfl⟩
  | ok => rfl

theorem Follows.ends {body : Result Unit × List α} (h : Follows observed outcome body) :
    Ends observed body.2 ((∃ response, outcome = .ok response) ∧ body.1 = .ok ()) := by
  obtain ⟨last, hcalls, hlast⟩ := h
  obtain ⟨answer, responses⟩ := body
  refine ⟨last, hcalls, ?_⟩
  cases outcome with
  | error e => exact .inr ⟨hlast, by simp⟩
  | ok response =>
    obtain rfl := hlast
    cases answer with
    | error e => exact .inr ⟨⟨e, rfl⟩, by simp⟩
    | ok done => exact .inl ⟨rfl, ⟨response, rfl⟩, rfl⟩

/-- Whatever the chunks, the observer follows the reading of the whole body. -/
theorem driveChunks_events (hvalid : session.metadataValidated)
    (hevents : session.collecting = false) (hline : 10 ∉ session.parser.lineBuffer)
    (h : Seen observed responses) :
    Follows (driveChunks binding none outcome chunks session observed) outcome
      (read (keep (binding.decode session.metadata)) session.parser.frame
        (session.parser.lineBuffer ++ chunks.flatten) responses) := by
  -- from chunk to chunk, the parser of the session is the state of the reader of the rest
  induction chunks generalizing session observed responses with
  | nil =>
    obtain ⟨answer, after, hfinish⟩ := finish_silent session.parser
    rw [flatten_nil, append_nil, read_finish hline, hfinish]
    cases outcome with
    | error e => exact ⟨.onError e, by simpa [driveChunks, complete, Observed.notify, Observed.load, Seen] using h, e,
        rfl⟩
    | ok response =>
      have hload : Seen observed.load.load responses := h
      simp only [driveChunks, complete, finishStream, cancelRequested_none, hvalid, hevents, hfinish,
        Bool.false_eq_true, if_false, if_true]
      cases answer with
      | error e => exact hload.follows_error
      | ok done => exact ⟨.onCompleted, by simpa [Observed.notify, Seen] using hload, rfl⟩
  | cons chunk chunks ih =>
    have hload : Seen observed.load responses := h
    obtain ⟨answer, after, next, next', hfeed, hfeed', hnext⟩ :=
      feed_related (dispatch_simulates session.metadata) session.parser chunk hload
    have hchunk : session.handleChunk binding none chunk observed =
        (answer, { session with parser := after }, next) := by
      simp only [handleChunk, hvalid, hevents, cancelRequested_none, Bool.not_true, Bool.false_eq_true, if_false]
      rw [hfeed]
    rw [flatten_cons, read_feed, hfeed', driveChunks, hchunk]
    cases answer with
    | error e =>
      have hlast : Seen next.load next' := hnext
      exact hlast.follows_error
    | ok done =>
      exact @ih { session with parser := after } next next' hvalid hevents (notMem_lineBuffer_feed hfeed) hnext

/-- A whole stream whose metadata announce events. -/
theorem drive_events {metadata : HttpClientResponse} (hvalid : binding.validate metadata = .ok false) :
    Follows (drive binding none metadata chunks outcome) outcome
      (read (keep (binding.decode metadata)) {} chunks.flatten []) := by
  unfold drive validateMetadata
  rw [hvalid]
  exact @driveChunks_events _ binding outcome
    { metadata, metadataValidated := true, body := binding.firstBody metadata } _ _ chunks rfl rfl List.not_mem_nil rfl

/-- A body that is collected gives no event, and an error at the end. -/
theorem driveChunks_body (hvalid : session.metadataValidated)
    (hbody : session.collecting) (h : Seen observed []) (hfailed : ¬ succeeded) :
    Ends (driveChunks binding none outcome chunks session observed) [] succeeded := by
  have hload : Seen observed.load [] := h
  induction chunks generalizing session observed with
  | nil =>
    cases outcome with
    | error e => exact complete_error h hfailed
    | ok response =>
      simp only [driveChunks, complete, finishStream, cancelRequested_none, hvalid, hbody, Bool.false_eq_true,
        if_false, if_true]
      exact hload.ends_error hfailed
  | cons chunk chunks ih =>
    simp only [driveChunks, handleChunk, cancelRequested_none, hvalid, hbody, Bool.not_true, Bool.false_eq_true,
      if_false, if_true]
    exact @ih { session with metadataValidated := true, collecting := true, body := session.body ++ chunk }
      observed.load rfl rfl h hload

/-! ## Cancellation -/

/-- Every call came after a load of its own, none after the one that saw the cancellation. -/
structure Heeds (cancelAt : Option Nat) (observed : Observed α) : Prop where
  past : ∀ entry ∈ observed.calls, entry.1 ≤ observed.loads
  quiet : ∀ entry ∈ observed.calls, ∀ moment, cancelAt = some moment → entry.1 ≤ moment
  separate : observed.calls.Pairwise fun entry later => entry.1 < later.1

theorem Heeds.load (h : Heeds cancelAt observed) : Heeds cancelAt observed.load :=
  ⟨fun entry hentry => Nat.le_succ_of_le (h.past entry hentry), h.quiet, h.separate⟩

theorem Heeds.notify (h : Heeds cancelAt observed) (hload : ¬ observed.cancelRequested cancelAt)
    (call : ObserverCall α) : Heeds cancelAt (observed.load.notify call) := by
  obtain ⟨hpast, hquiet, hseparate⟩ := h
  have hnew : ∀ moment, cancelAt = some moment → observed.loads + 1 ≤ moment := by
    rintro moment rfl
    simpa [cancelRequested, Nat.succ_le_iff] using hload
  constructor
  · simp only [Observed.notify, Observed.load]
    grind
  · simp only [Observed.notify, Observed.load]
    grind
  · simp only [Observed.notify, Observed.load, pairwise_append]
    grind

/-- A decoded frame is passed on only after a load that saw no cancellation. -/
theorem heeds_dispatch (metadata : HttpClientResponse) :
    Simulates (fun observed observed' => observed = observed' ∧ Heeds cancelAt observed)
      (dispatch binding cancelAt metadata) (dispatch binding cancelAt metadata) := by
  rintro observed _ event ⟨rfl, h⟩
  refine ⟨rfl, rfl, ?_⟩
  unfold dispatch
  split_ifs with hcancel
  · exact h.load
  · split
    · exact h.notify hcancel _
    · exact h.load

theorem heeds_finishStream {response : HttpClientResponse} (h : Heeds cancelAt observed)
    (hcancel : ¬ observed.cancelRequested cancelAt) :
    Heeds cancelAt (session.finishStream binding cancelAt response observed.load) := by
  obtain ⟨answer, after, hfinish⟩ := finish_silent session.parser
  unfold finishStream
  by_cases hbody : session.collecting
  · rw [if_pos hbody]
    exact h.notify hcancel _
  · rw [if_neg hbody, hfinish]
    dsimp only
    split_ifs with hlater
    · exact h.load.load
    · split <;> exact h.load.notify hlater _

theorem heeds_complete (h : Heeds cancelAt observed) :
    Heeds cancelAt (session.complete binding cancelAt outcome observed) := by
  unfold complete
  split_ifs with hcancel
  · exact h.load
  · split
    · exact h.notify hcancel _
    · split
      · exact h.notify hcancel _
      · exact heeds_finishStream h hcancel
  · split
    · exact h.notify hcancel _
    · split
      · exact h.notify hcancel _
      · exact heeds_finishStream h hcancel

theorem heeds_handleChunk (h : Heeds cancelAt observed) :
    Heeds cancelAt (session.handleChunk binding cancelAt chunk observed).2.2 := by
  unfold handleChunk
  split_ifs
  · exact h.load
  · exact h.load
  · exact h.load
  · obtain ⟨answer, after, next, _, hfeed, -, -, hnext⟩ :=
      feed_related (heeds_dispatch session.metadata) session.parser chunk ⟨rfl, h.load⟩
    rw [hfeed]
    exact hnext

theorem heeds_driveChunks (h : Heeds cancelAt observed) :
    Heeds cancelAt (driveChunks binding cancelAt outcome chunks session observed) := by
  induction chunks generalizing session observed with
  | nil => exact heeds_complete h
  | cons chunk chunks ih =>
    have hchunk : Heeds cancelAt (session.handleChunk binding cancelAt chunk observed).2.2 := heeds_handleChunk h
    unfold driveChunks
    split <;> rename_i heq <;> rw [heq] at hchunk
    · exact heeds_complete hchunk
    · exact ih hchunk

end Driven

/-- An observer that does not cancel sees the frames and one end, of the streams whose metadata are accepted. -/
def Drives {α : Type} (binding : SseBinding α) (metadata : HttpClientResponse) (accepts : Prop)
    [Decidable accepts] : Prop :=
  ∀ chunks outcome, Ends (drive binding none metadata chunks outcome)
    (if accepts then delivered (binding.decode metadata) (framesOf chunks.flatten).2 else [])
    (accepts ∧ (∃ response, outcome = .ok response) ∧ (framesOf chunks.flatten).1 = .ok () ∧
      Decodes (binding.decode metadata) (framesOf chunks.flatten).2)

/-- Any session with its rule for metadata: events if they pass, one error otherwise. -/
theorem drives {α : Type} {binding : SseBinding α} {metadata : HttpClientResponse} {accepts : Prop}
    [Decidable accepts] (haccepts : binding.validate metadata = .ok false ↔ accepts) :
    Drives binding metadata accepts := by
  intro chunks outcome
  have hseen : Seen ({} : Observed α) [] := rfl
  simp only [← haccepts]
  by_cases hvalid : binding.validate metadata = .ok false
  · obtain ⟨hdelivered, hdecodes⟩ := decodeAll_spec (binding.decode metadata) (framesOf chunks.flatten).2
    have hends := (@drive_events _ _ outcome chunks _ hvalid).ends
    rw [read_keep] at hends
    simp only [hvalid, if_true, true_and, ← hdelivered, ← hdecodes]
    generalize decodeAll (binding.decode metadata) (framesOf chunks.flatten).2 = decoded at hends ⊢
    obtain ⟨decoding, responses⟩ := decoded
    cases decoding with
    | error e => simpa [Except.bind] using hends
    | ok done => simpa [Except.bind] using hends
  · simp only [hvalid, if_false, false_and]
    unfold drive validateMetadata
    cases hother : binding.validate metadata with
    | error e => exact complete_error hseen id
    | ok collecting =>
      cases collecting with
      | true => exact driveChunks_body rfl rfl hseen id
      | false => exact absurd hother hvalid

/-- What the observer of a stream sees. If the stream is not cancelled, it sees the frames up to the
first failure and then one end, which is `OnCompleted` exactly if the metadata announce an event
stream, the transport succeeds and the body is made of whole frames that can all be decoded. If it is
cancelled, it sees nothing from then on. -/
theorem observer_sees_frames_and_one_end {α : Type} (binding : SseBinding α) (metadata : HttpClientResponse)
    (chunks : List Bytes) (outcome : Result HttpClientResponse) :
    Ends (drive binding none metadata chunks outcome) (if binding.validate metadata = .ok false then
        delivered (binding.decode metadata) (framesOf chunks.flatten).2
      else [])
      (binding.validate metadata = .ok false ∧ (∃ response, outcome = .ok response) ∧
        (framesOf chunks.flatten).1 = .ok () ∧ Decodes (binding.decode metadata) (framesOf chunks.flatten).2) ∧
    ∀ moment, Heeds (some moment) (drive binding (some moment) metadata chunks outcome) := by
  refine ⟨drives Iff.rfl chunks outcome, fun moment => ?_⟩
  have hstart : Heeds (some moment) ({} : Observed α) := ⟨nofun, nofun, List.Pairwise.nil⟩
  unfold drive
  split
  · exact heeds_complete hstart
  · exact heeds_driveChunks hstart

/-! ## The two sessions -/

section Bindings

variable {α : Type} {jsonToMessage : Bytes → Result α} {stringMember : Bytes → Bytes → Option Bytes}
  {parseResponseResult : HttpClientResponse → Bytes → Result Bytes} {metadata : HttpClientResponse}

theorem validate_httpSseSession {method endpoint : Bytes} :
    (httpSseSession jsonToMessage stringMember method endpoint).validate metadata = .ok false ↔
      validateResponseVersion "http" metadata = .ok () ∧ isSuccess metadata.statusCode ∧
        hasSseContentType metadata.headers := by
  simp only [httpSseSession]
  cases validateResponseVersion "http" metadata <;> cases isSuccess metadata.statusCode <;>
    cases hasSseContentType metadata.headers <;> simp [bind, Except.bind, pure, Except.pure]

theorem validate_jsonRpcSseSession {requestId : Bytes} :
    (jsonRpcSseSession jsonToMessage parseResponseResult requestId).validate metadata = .ok false ↔
      validateResponseVersion "jsonrpc" metadata = .ok () ∧ hasJsonContentType metadata.headers = false ∧
        isSuccess metadata.statusCode ∧ hasSseContentType metadata.headers := by
  simp only [jsonRpcSseSession]
  cases validateResponseVersion "jsonrpc" metadata <;> cases hasJsonContentType metadata.headers <;>
    cases isSuccess metadata.statusCode <;> cases hasSseContentType metadata.headers <;>
    simp [bind, Except.bind, pure, Except.pure]

/-- The observer of an HTTP+JSON stream. -/
theorem httpSseSession_drives (method endpoint : Bytes) :
    Drives (httpSseSession jsonToMessage stringMember method endpoint) metadata
      (validateResponseVersion "http" metadata = .ok () ∧ isSuccess metadata.statusCode ∧
        hasSseContentType metadata.headers) :=
  drives validate_httpSseSession

/-- The observer of a JSON-RPC stream. -/
theorem jsonRpcSseSession_drives (requestId : Bytes) :
    Drives (jsonRpcSseSession jsonToMessage parseResponseResult requestId) metadata
      (validateResponseVersion "jsonrpc" metadata = .ok () ∧ hasJsonContentType metadata.headers = false ∧
        isSuccess metadata.statusCode ∧ hasSseContentType metadata.headers) :=
  drives validate_jsonRpcSseSession

end Bindings

end SseSession

end A2A.Client
