/-
# What `WriteResponse` sends is one response.
-/
import A2A.Server.Transport.HttpResponseFraming

namespace A2A.Server.Transport

open A2A.Foundation A2A.Core Http11 HttpAdapter Sink List

namespace HttpServerResponse

def framing (response : HttpServerResponse) (closeConnection : Bool) : Framing :=
  if response.streamWriter.isSome then
    if response.mustClose closeConnection then .closeDelimited else .chunked
  else .contentLength response.body.length

/-- A status code of three digits that permits a body, tokens as names, no line end in a value, and only blanks and tabs
as white space in the values that frame the message. -/
structure WellFormed (response : HttpServerResponse) : Prop where
  status_low : 100 ≤ response.statusCode
  status_high : response.statusCode ≤ 999
  permitsBody : PermitsBody response.statusCode.toNat
  writable : ∀ header ∈ response.headers.rows, Writable header
  whiteSpace : ∀ header ∈ response.headers.rows,
    (equalsAsciiCaseInsensitive header.1 kConnectionHeader = true ∨
      equalsAsciiCaseInsensitive header.1 kContentLengthHeader = true) → ∀ b ∈ header.2, b ≠ 11 ∧ b ≠ 12

variable {response : HttpServerResponse} {closeConnection : Bool} {header : Bytes × Bytes} {text value : Bytes}

/-- A value that frames the message has only blanks and tabs as white space. -/
theorem WellFormed.plain (hwell : response.WellFormed) (hrow : header ∈ response.headers.rows)
    (hname : equalsAsciiCaseInsensitive header.1 kConnectionHeader = true ∨
      equalsAsciiCaseInsensitive header.1 kContentLengthHeader = true) :
    ∀ b ∈ header.2, b ≠ 10 ∧ b ≠ 11 ∧ b ≠ 12 ∧ b ≠ 13 := by
  intro b hb
  obtain ⟨hcr, hlf⟩ := (hwell.writable header hrow).2 b hb
  obtain ⟨hvt, hff⟩ := hwell.whiteSpace header hrow hname b hb
  exact ⟨hlf, hvt, hff, hcr⟩

/-! ## The headers that are written -/

theorem mem_ownHeaders {hasContentLength : Bool} :
    header ∈ response.ownHeaders closeConnection hasContentLength ↔
      (header = (kContentLengthHeaderName, decimal response.body.length) ∧ hasContentLength = false ∧
          response.streamWriter.isSome = false) ∨
        (header = (kTransferEncodingHeaderName, kTransferEncodingChunked) ∧ response.streamWriter.isSome ∧
          response.mustClose closeConnection = false) ∨
        (header = (kConnectionHeaderName, kConnectionCloseHeaderValue) ∧
          response.mustClose closeConnection ∧ response.requestsClose = false) := by
  unfold ownHeaders
  generalize response.streamWriter.isSome = streaming
  generalize response.mustClose closeConnection = closing
  generalize response.requestsClose = requested
  cases hasContentLength <;> cases streaming <;> cases closing <;> cases requested <;> simp

theorem mem_writtenHeaders (h : header ∈ response.writtenHeaders closeConnection) :
    header ∈ response.headers.rows ∨ header ∈ response.ownHeaders closeConnection response.hasContentLength := by
  rcases mem_append.mp h with hkept | hown
  · exact .inl (mem_filter.mp hkept).1
  · exact .inr hown

theorem writable_writtenHeaders (hwell : response.WellFormed) :
    ∀ header ∈ response.writtenHeaders closeConnection, Writable header := by
  intro header hheader
  rcases mem_writtenHeaders hheader with hrow | hown
  · exact hwell.writable header hrow
  · rcases mem_ownHeaders.mp hown with ⟨rfl, -⟩ | ⟨rfl, -⟩ | ⟨rfl, -⟩
    · have htoken : IsToken kContentLengthHeaderName := by decide +kernel
      refine ⟨htoken, fun b hb => ⟨?_, ?_⟩⟩
      · rintro rfl
        exact absurd (isDigitByte_of_mem_decimal hb) (by decide)
      · rintro rfl
        exact absurd (isDigitByte_of_mem_decimal hb) (by decide)
    · decide +kernel
    · decide +kernel

theorem mem_fieldTexts {name : Bytes} {headers : List (Bytes × Bytes)} :
    text ∈ fieldTexts name (headers.map decodedHeader) ↔
      ∃ header ∈ headers, equalsAsciiCaseInsensitive header.1 name ∧ text = 32 :: header.2 := by
  simp only [fieldTexts, mem_map, mem_filter, decodedHeader]
  constructor
  · rintro ⟨field, ⟨⟨header, hheader, rfl⟩, hname⟩, rfl⟩
    exact ⟨header, hheader, hname, rfl⟩
  · rintro ⟨header, hheader, hname, rfl⟩
    exact ⟨_, ⟨⟨header, hheader, rfl⟩, hname⟩, rfl⟩

/-! ## The lengths -/

theorem parseContentLength_eq_ok {size : Nat} (h : parseContentLength value = .ok size) :
    trimAsciiWhitespace value ≠ [] ∧ (∀ b ∈ trimAsciiWhitespace value, isDigitByte b) ∧
      decimalValue (trimAsciiWhitespace value) = size := by
  unfold parseContentLength at h
  dsimp only at h
  split_ifs at h with hempty
  split at h
  · next parsed hchars =>
      split_ifs at h with hsize
      rw [← Except.ok.inj h]
      exact fromCharsUnsigned_eq_ok hchars
  · cases h

theorem decodeLength_cons (hplain : ∀ b ∈ value, b ≠ 10 ∧ b ≠ 11 ∧ b ≠ 12 ∧ b ≠ 13)
    (hne : trimAsciiWhitespace value ≠ []) (hdigits : ∀ b ∈ trimAsciiWhitespace value, isDigitByte b) :
    decodeLength (32 :: value) = some (decimalValue (trimAsciiWhitespace value)) := by
  have htrim : trimOws (32 :: value) = trimAsciiWhitespace value := by
    rw [trimOws_eq (forall_mem_cons.mpr ⟨by decide, hplain⟩)]
    rfl
  rw [decodeLength, htrim, if_pos ⟨hne, hdigits⟩]

/-- Every `Content-Length` that is written is the length of the body. -/
theorem decodeLength_of_written (hwell : response.WellFormed) (hpass : response.HeadersPass)
    (hstream : response.streamWriter.isSome = false)
    (htext : text ∈ fieldTexts (bytes "content-length") ((response.writtenHeaders closeConnection).map decodedHeader)) :
    decodeLength text = some response.body.length := by
  obtain ⟨header, hheader, hname, rfl⟩ := mem_fieldTexts.mp htext
  rcases mem_writtenHeaders hheader with hrow | hown
  · obtain ⟨-, hparse⟩ := hpass.contentLength header hrow hname
    obtain ⟨hne, hdigits, hvalue⟩ := parseContentLength_eq_ok hparse
    rw [decodeLength_cons (hwell.plain hrow (.inr hname)) hne hdigits, hvalue]
  · rcases mem_ownHeaders.mp hown with ⟨rfl, -⟩ | ⟨-, hstreaming, -⟩ | ⟨rfl, -⟩
    · have htrim : trimAsciiWhitespace (decimal response.body.length) = decimal response.body.length :=
        trimAsciiWhitespace_of_noSpace fun b hb => isSpace_of_isDigitByte (isDigitByte_of_mem_decimal hb)
      have hplain : ∀ b ∈ decimal response.body.length, b ≠ 10 ∧ b ≠ 11 ∧ b ≠ 12 ∧ b ≠ 13 := by
        have hall : ∀ b : UInt8, isDigitByte b → b ≠ 10 ∧ b ≠ 11 ∧ b ≠ 12 ∧ b ≠ 13 := by decide +kernel
        exact fun b hb => hall b (isDigitByte_of_mem_decimal hb)
      rw [decodeLength_cons hplain (htrim.symm ▸ decimal_ne_nil _)
        (htrim.symm ▸ fun b hb => isDigitByte_of_mem_decimal hb), htrim, decimalValue_decimal]
    · cases hstream.symm.trans hstreaming
    · exact absurd hname (by decide)

/-! ## One framing -/

theorem mem_writtenHeaders_of_contentLength (hrow : header ∈ response.headers.rows)
    (hname : equalsAsciiCaseInsensitive header.1 kContentLengthHeader) :
    header ∈ response.writtenHeaders closeConnection := by
  apply mem_append_left
  rw [keptHeaders, mem_filter]
  have hother : equalsAsciiCaseInsensitive header.1 kConnectionHeader = false := by
    apply Bool.eq_false_iff.mpr
    intro hconnection
    have hsame := (of_decide_eq_true hname).symm.trans (of_decide_eq_true hconnection)
    exact absurd hsame (by decide)
  refine ⟨hrow, ?_⟩
  rw [hother]
  rfl

theorem fieldTexts_eq_nil {name : Bytes} {headers : List (Bytes × Bytes)}
    (h : ∀ header ∈ headers, ¬ equalsAsciiCaseInsensitive header.1 name) :
    fieldTexts name (headers.map decodedHeader) = [] := by
  rw [eq_nil_iff_forall_not_mem]
  intro text htext
  obtain ⟨header, hheader, hname, -⟩ := mem_fieldTexts.mp htext
  exact h header hheader hname

theorem contentLengthTexts_ne_nil (hstream : response.streamWriter.isSome = false) :
    fieldTexts (bytes "content-length") ((response.writtenHeaders closeConnection).map decodedHeader) ≠ [] := by
  have hexists : ∃ header ∈ response.writtenHeaders closeConnection,
      equalsAsciiCaseInsensitive header.1 kContentLengthHeader := by
    cases hhas : response.hasContentLength with
    | true =>
      obtain ⟨header, hrow, hname⟩ := any_eq_true.mp hhas
      exact ⟨header, mem_writtenHeaders_of_contentLength hrow hname, hname⟩
    | false =>
      refine ⟨(kContentLengthHeaderName, decimal response.body.length), ?_, rfl⟩
      apply mem_append_right
      exact mem_ownHeaders.mpr (.inl ⟨rfl, hhas, hstream⟩)
  obtain ⟨header, hheader, hname⟩ := hexists
  exact ne_nil_of_mem (mem_fieldTexts.mpr ⟨header, hheader, hname, rfl⟩)

theorem contentLengthTexts_eq_nil (hpass : response.HeadersPass) (hstream : response.streamWriter.isSome) :
    fieldTexts (bytes "content-length") ((response.writtenHeaders closeConnection).map decodedHeader) = [] := by
  refine fieldTexts_eq_nil fun header hheader hname => ?_
  rcases mem_writtenHeaders hheader with hrow | hown
  · cases hstream.symm.trans (hpass.contentLength header hrow hname).1
  · rcases mem_ownHeaders.mp hown with ⟨-, -, hnone⟩ | ⟨rfl, -⟩ | ⟨rfl, -⟩
    · cases hstream.symm.trans hnone
    · exact absurd hname (by decide)
    · exact absurd hname (by decide)

theorem transferEncodingTexts_eq_nil (hpass : response.HeadersPass)
    (h : response.streamWriter.isSome = false ∨ response.mustClose closeConnection) :
    fieldTexts (bytes "transfer-encoding") ((response.writtenHeaders closeConnection).map decodedHeader) = [] := by
  refine fieldTexts_eq_nil fun header hheader hname => ?_
  rcases mem_writtenHeaders hheader with hrow | hown
  · exact hpass.no_transferEncoding header hrow hname
  · rcases mem_ownHeaders.mp hown with ⟨rfl, -⟩ | ⟨-, hstreaming, hopen⟩ | ⟨rfl, -⟩
    · have hother : ¬ equalsAsciiCaseInsensitive kContentLengthHeaderName (bytes "transfer-encoding") := by decide
      exact absurd hname hother
    · rcases h with hstream | hclose
      · cases hstream.symm.trans hstreaming
      · cases hclose.symm.trans hopen
    · exact absurd hname (by decide)

theorem transferEncodingTexts_eq_chunked (hpass : response.HeadersPass)
    (hstream : response.streamWriter.isSome) (hopen : response.mustClose closeConnection = false) :
    fieldTexts (bytes "transfer-encoding") ((response.writtenHeaders closeConnection).map decodedHeader) =
      [32 :: kTransferEncodingChunked] := by
  have hkept : fieldTexts (bytes "transfer-encoding")
      ((keptHeaders (response.headerOptions closeConnection) response.headers.rows).map decodedHeader) = [] :=
    fieldTexts_eq_nil fun header hheader => hpass.no_transferEncoding header (mem_filter.mp hheader).1
  have hown : response.ownHeaders closeConnection response.hasContentLength =
      [(kTransferEncodingHeaderName, kTransferEncodingChunked)] := by
    simp [ownHeaders, hstream, hopen]
  rw [writtenHeaders, map_append, hown, fieldTexts, filter_append, map_append]
  show fieldTexts _ _ ++ _ = _
  rw [hkept]
  rfl

/-- The headers announce the framing that the adapter follows, and no other. -/
theorem decodeFraming_writtenHeaders (hwell : response.WellFormed) (hpass : response.HeadersPass) :
    decodeFraming ((response.writtenHeaders closeConnection).map decodedHeader) =
      some (response.framing closeConnection) := by
  unfold decodeFraming framing
  cases hstream : response.streamWriter.isSome with
  | false =>
    obtain ⟨text, texts, htexts⟩ := exists_cons_of_ne_nil (contentLengthTexts_ne_nil hstream)
    have hall : ∀ other ∈ text :: texts, decodeLength other = some response.body.length :=
      fun other hother => decodeLength_of_written hwell hpass hstream (htexts ▸ hother)
    rw [transferEncodingTexts_eq_nil hpass (.inl hstream), htexts]
    dsimp only
    rw [hall text (mem_cons_self ..)]
    exact if_pos fun other hother => hall other (mem_cons_of_mem _ hother)
  | true =>
    rw [contentLengthTexts_eq_nil hpass hstream]
    cases hclose : response.mustClose closeConnection with
    | true =>
      rw [transferEncodingTexts_eq_nil hpass (.inr hclose)]
      rfl
    | false =>
      rw [transferEncodingTexts_eq_chunked hpass hstream hclose]
      rfl

/-- What was written decodes to one response, with the body that the framing gives the rest. -/
theorem decodeResponse_written (hwell : response.WellFormed) {head : Bytes}
    (hhead : response.head closeConnection = .ok head) (text : Bytes) :
    decodeResponse (head ++ text) = (decodeBody (response.framing closeConnection) text).map
      (⟨response.statusCode.toNat, (response.writtenHeaders closeConnection).map decodedHeader,
        response.framing closeConnection, ·⟩) := by
  obtain ⟨rfl, hpass⟩ := head_eq_ok hhead
  rw [decodeResponse_head hwell.status_low hwell.status_high hwell.permitsBody (writable_writtenHeaders hwell),
    decodeFraming_writtenHeaders hwell hpass, Option.bind_some]

/-! ## Closing -/

/-- A token that the adapter sees in a value is also one for the decoder. -/
theorem exists_part_cons {token : Bytes} (hplain : ∀ b ∈ value, b ≠ 10 ∧ b ≠ 11 ∧ b ≠ 12 ∧ b ≠ 13)
    (h : ∃ part ∈ splitOn (bytes ",") value, equalsAsciiCaseInsensitive (trimAsciiWhitespace part) token) :
    ∃ part ∈ splitOn (bytes ",") (32 :: value), equalsAsciiCaseInsensitive (trimOws part) token := by
  obtain ⟨part, hpart, htoken⟩ := h
  have hbytes : ∀ b ∈ part, b ≠ 10 ∧ b ≠ 11 ∧ b ≠ 12 ∧ b ≠ 13 :=
    fun b hb => hplain b ((sublist_of_mem_splitOn hpart).subset hb)
  obtain ⟨first, rest, hsplit, hlonger⟩ : ∃ first rest, splitOn (bytes ",") value = first :: rest ∧
      splitOn (bytes ",") (32 :: value) = (32 :: first) :: rest := splitOn_cons_of_ne (by decide) [] value
  rw [hsplit] at hpart
  rw [hlonger]
  rcases mem_cons.mp hpart with rfl | hpart
  · refine ⟨32 :: part, mem_cons_self .., ?_⟩
    rw [trimOws_eq (forall_mem_cons.mpr ⟨by decide, hbytes⟩)]
    exact htoken
  · refine ⟨part, mem_cons_of_mem _ hpart, ?_⟩
    rw [trimOws_eq hbytes]
    exact htoken

/-- A connection that is to be closed is announced so. -/
theorem closes_of_mustClose (hwell : response.WellFormed) (hclose : response.mustClose closeConnection) :
    listsToken (bytes "connection") (bytes "close") ((response.writtenHeaders closeConnection).map decodedHeader) := by
  rw [listsToken, any_eq_true]
  cases hrequested : response.requestsClose with
  | true =>
    obtain ⟨header, hrow, hfound⟩ := any_eq_true.mp hrequested
    obtain ⟨hname, hparts⟩ := Bool.and_eq_true_iff.mp hfound
    have hkept : header ∈ response.writtenHeaders closeConnection := by
      apply mem_append_left
      rw [keptHeaders, mem_filter]
      refine ⟨hrow, ?_⟩
      simp [headerOptions, hrequested]
    refine ⟨32 :: header.2, mem_fieldTexts.mpr ⟨header, hkept, hname, rfl⟩, ?_⟩
    rw [any_eq_true]
    exact exists_part_cons (hwell.plain hrow (.inl hname)) (any_eq_true.mp hparts)
  | false =>
    refine ⟨32 :: kConnectionCloseHeaderValue,
      mem_fieldTexts.mpr ⟨(kConnectionHeaderName, kConnectionCloseHeaderValue), ?_, ?_, rfl⟩, by decide⟩
    · exact mem_append_right _ (mem_ownHeaders.mpr (.inr (.inr ⟨rfl, hclose, hrequested⟩)))
    · decide

theorem mustClose_of_closeDelimited (h : response.framing closeConnection = .closeDelimited) :
    response.mustClose closeConnection := by
  unfold framing at h
  split_ifs at h with hstream hclose
  exact hclose

/-- The body to arrive: that of the response, or what its stream writer reports as written. -/
def sentBody (response : HttpServerResponse) (calls : List (Write Error)) : Bytes :=
  if response.streamWriter.isSome then accepted calls else response.body

end HttpServerResponse

/-! ## What is sent -/

variable {response : HttpServerResponse} {closeConnection : Bool} {sink : Sink Error}

variable {writer : StreamWriter}

theorem sent_writeAll {payload : Bytes} (h : ((writeAll payload).run write sink).value = .ok ()) :
    ((writeAll payload).run write sink).state.sent = sink.sent ++ payload := by
  obtain ⟨part, hsent, -, hall⟩ := sink.sent_writeFully (.internal "Transport write returned zero bytes") payload
  rw [hall h] at hsent
  exact hsent

/-- What a stream writer reports as written is the body under either framing. -/
theorem sent_writeStream {mustClose : Bool}
    (hok : (writeStream write writer mustClose sink).value = .ok ())
    (hcalls : ∀ call ∈ (writeStream write writer mustClose sink).calls, call.Succeeded) :
    ∃ text, (writeStream write writer mustClose sink).state.sent = sink.sent ++ text ∧
      decodeBody (if mustClose then .closeDelimited else .chunked) text =
        some (accepted (writeStream write writer mustClose sink).calls) := by
  cases mustClose with
  | true => exact ⟨_, sink.sent_run writer hcalls, rfl⟩
  | false =>
    unfold writeStream at hok hcalls ⊢
    rw [if_neg Bool.false_ne_true] at hok hcalls ⊢
    obtain ⟨pieces, hsent, hpieces⟩ := sent_run_chunked writer sink
    generalize writer.run (ChunkedByteTransport.write write) sink = streamed at hok hcalls hsent hpieces ⊢
    obtain ⟨value, calls, after⟩ := streamed
    cases value with
    | error e => nomatch hok
    | ok done =>
      obtain ⟨hchunks, haccepted⟩ := pieces_of_succeeded hpieces hcalls
      dsimp only at hok hsent haccepted ⊢
      refine ⟨pieces.flatten ++ kFinalChunk, ?_, ?_⟩
      · rw [sent_writeAll hok, hsent, append_assoc]
      · rw [haccepted, hchunks]
        exact decodeChunks_chunks (calls.map Write.payload) (Nat.le_refl _)

open HttpServerResponse

/-- A response that was written: its head, and a body that follows the framing. -/
theorem sent_writeResponse (hfresh : sink.sent = [])
    (hok : (writeResponse write response closeConnection sink).value = .ok ())
    (hcalls : ∀ call ∈ (writeResponse write response closeConnection sink).calls, call.Succeeded) :
    ∃ head text, response.head closeConnection = .ok head ∧
      (writeResponse write response closeConnection sink).state.sent = head ++ text ∧
      decodeBody (response.framing closeConnection) text =
        some (response.sentBody (writeResponse write response closeConnection sink).calls) := by
  unfold writeResponse at hok hcalls ⊢
  cases hhead : response.head closeConnection with
  | error e =>
    rw [hhead] at hok
    cases hok
  | ok head =>
    rw [hhead] at hok hcalls
    cases hwriter : response.streamWriter with
    | none =>
      rw [hwriter] at hok
      dsimp only at hok ⊢
      refine ⟨head, response.body, rfl, ?_, ?_⟩
      · rw [sent_writeAll hok, hfresh]
        rfl
      · simp [framing, sentBody, hwriter, decodeBody]
    | some writer =>
      rw [hwriter] at hok hcalls
      dsimp only at hok hcalls ⊢
      cases hwritten : ((writeAll head).run write sink).value with
      | error e =>
        rw [hwritten] at hok
        cases hok
      | ok done =>
        rw [hwritten] at hok hcalls
        obtain ⟨text, hsent, hbody⟩ := sent_writeStream hok hcalls
        refine ⟨head, text, rfl, ?_, ?_⟩
        · dsimp only
          rw [hsent, sent_writeAll hwritten, hfresh]
          rfl
        · simp only [framing, sentBody, hwriter, Option.isSome_some, if_true]
          exact hbody

/-- A writer that fails on a connection that is kept: its chunks, and no final one. -/
theorem sent_of_writer_error {head : Bytes} (hfresh : sink.sent = [])
    (hhead : response.head closeConnection = .ok head) (hwriter : response.streamWriter = some writer)
    (hopen : response.mustClose closeConnection = false)
    (hwritten : ((writeAll head).run write sink).value = .ok ()) {e : Error}
    (hfailed : (writer.run (ChunkedByteTransport.write write)
      ((writeAll head).run write sink).state).value = .error e) :
    ∃ pieces, (writeResponse write response closeConnection sink).state.sent = head ++ pieces.flatten ∧
      Forall₂ SendsChunk pieces (writeResponse write response closeConnection sink).calls := by
  obtain ⟨pieces, hsent, hpieces⟩ := sent_run_chunked writer ((writeAll head).run write sink).state
  have hrun : writeResponse write response closeConnection sink =
      ⟨.error e, (writer.run (ChunkedByteTransport.write write) ((writeAll head).run write sink).state).calls,
        (writer.run (ChunkedByteTransport.write write) ((writeAll head).run write sink).state).state⟩ := by
    simp only [writeResponse, hhead, hwriter, hwritten, writeStream, hopen, Bool.false_eq_true, if_false, hfailed]
  rw [hrun]
  refine ⟨pieces, ?_, hpieces⟩
  rw [hsent, sent_writeAll hwritten, hfresh]
  rfl

/-- `WriteResponse` sends one response: the status, the body, and one framing. If the stream writer fails on a
connection that is kept, the body stays unfinished. -/
theorem writeResponse_sends_one_response (closeConnection : Bool) (hwell : response.WellFormed)
    (hfresh : sink.sent = []) :
    ((HttpAdapter.writeResponse Sink.write response closeConnection sink).value = .ok () →
      (∀ call ∈ (HttpAdapter.writeResponse Sink.write response closeConnection sink).calls, call.Succeeded) →
      ∃ message, decodeResponse (HttpAdapter.writeResponse Sink.write response closeConnection sink).state.sent =
          some message ∧
        message.status = response.statusCode.toNat ∧
        message.body = response.sentBody (HttpAdapter.writeResponse Sink.write response closeConnection sink).calls ∧
        message.framing = response.framing closeConnection ∧
        (message.framing = .closeDelimited → message.closes = true)) ∧
    (∀ head writer e, response.head closeConnection = .ok head → response.streamWriter = some writer →
      response.mustClose closeConnection = false → ((writeAll head).run Sink.write sink).value = .ok () →
      (writer.run (ChunkedByteTransport.write Sink.write) ((writeAll head).run Sink.write sink).state).value =
        .error e →
      (∃ pieces, (HttpAdapter.writeResponse Sink.write response closeConnection sink).state.sent =
          head ++ pieces.flatten ∧
        List.Forall₂ SendsChunk pieces (HttpAdapter.writeResponse Sink.write response closeConnection sink).calls) ∧
      ((∀ call ∈ (HttpAdapter.writeResponse Sink.write response closeConnection sink).calls.dropLast, call.Succeeded) →
        decodeResponse (HttpAdapter.writeResponse Sink.write response closeConnection sink).state.sent = none)) := by
  refine ⟨?_, ?_⟩
  · intro hok hcalls
    obtain ⟨head, text, hhead, hsent, hbody⟩ := sent_writeResponse hfresh hok hcalls
    rw [hsent, decodeResponse_written hwell hhead, hbody]
    refine ⟨_, rfl, rfl, rfl, rfl, ?_⟩
    intro hframing
    apply closes_of_mustClose hwell
    exact mustClose_of_closeDelimited hframing
  · intro head writer e hhead hwriter hopen hwritten hfailed
    obtain ⟨pieces, hsent, hpieces⟩ := sent_of_writer_error hfresh hhead hwriter hopen hwritten hfailed
    refine ⟨⟨pieces, hsent, hpieces⟩, ?_⟩
    intro hcalls
    have hframing : response.framing closeConnection = .chunked := by
      simp [framing, hwriter, hopen]
    rw [hsent, decodeResponse_written hwell hhead, hframing, decodeBody, decodeChunks_unfinished hpieces hcalls]
    rfl

/-- Two events in one stream over a transport that takes at most ten bytes at a time. -/
theorem stream_of_two_events_is_sent :
    ∃ message, decodeResponse (HttpAdapter.writeResponse Sink.write
        { statusCode := 200, streamWriter := some ((writeAll "data: a\n\n").bind fun _ => writeAll "data: b\n\n") } false
        ⟨List.replicate 20 ⟨10, none⟩, []⟩).state.sent = some message ∧
      message.status = 200 ∧ message.body = bytes "data: a\n\ndata: b\n\n" ∧ message.framing = .chunked := by
  have hwell : HttpServerResponse.WellFormed
      { statusCode := 200, streamWriter := some ((writeAll "data: a\n\n").bind fun _ => writeAll "data: b\n\n") } :=
    ⟨by decide, by decide, by decide, nofun, nofun⟩
  have hsink : (⟨List.replicate 20 ⟨10, none⟩, []⟩ : Sink Error).sent = [] := rfl
  obtain ⟨message, hmessage, hstatus, hbody, hframing, -⟩ :=
    (writeResponse_sends_one_response false hwell hsink).1 (by decide +kernel) (by decide +kernel)
  refine ⟨message, hmessage, hstatus, ?_, hframing⟩
  rw [hbody]
  decide +kernel

/-- Four ways in which a response that was written with success is not the one that was meant. A writer that ignores
a failed call leaves half a chunk in front of the final one; a writer that ignores how much was taken loses bytes on a
connection that is closed; a vertical tab hides `close` and a length from the client, but not from the adapter. -/
theorem written_response_is_misread :
    (let run := writeResponse write
      { statusCode := 200, streamWriter := some (.write "ab" fun _ => .done (.ok ())) } false
      ⟨[⟨100, none⟩, ⟨3, none⟩, ⟨0, some (.internal "interrupted")⟩, ⟨100, none⟩], []⟩
    run.value.isOk = true ∧ decodeResponse run.state.sent = none) ∧
    (let run := writeResponse write
      { statusCode := 200, streamWriter := some (.write "ab" fun _ => .done (.ok ())) } true
      ⟨[⟨100, none⟩, ⟨1, none⟩], []⟩
    run.value.isOk = true ∧ (decodeResponse run.state.sent).map Response.body = some (bytes "a")) ∧
    (let run := writeResponse write
      { statusCode := 200, headers := ⟨[(bytes "Connection", bytes "\x0bclose")], by decide⟩,
        streamWriter := some (.write "ab" fun _ => .done (.ok ())) } false
      ⟨[⟨100, none⟩, ⟨100, none⟩], []⟩
    run.value.isOk = true ∧ (decodeResponse run.state.sent).map (fun message => (message.framing, message.closes)) =
        some (.closeDelimited, false)) ∧
    (let run := writeResponse write
      { statusCode := 200, headers := ⟨[(bytes "Content-Length", bytes "\x0b2")], by decide⟩, body := "ab" } false
      ⟨[⟨100, none⟩], []⟩
    run.value.isOk = true ∧ decodeResponse run.state.sent = none) := by
  decide +kernel

end A2A.Server.Transport
