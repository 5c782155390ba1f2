/-
# A response that was written is read back.
-/
import A2A.Server.Transport.HttpFields
import A2A.Server.Transport.HttpResponseDecoder
import A2A.Server.Transport.HttpResponseWriter

namespace A2A.Server.Transport

open A2A.Foundation A2A.Core Http11 List

/-! ## The chunked transport -/

/-- The bytes of a call: its chunk, or nothing if there is nothing to write. -/
def chunkOf (payload : Bytes) : Bytes := if payload.isEmpty then [] else encodeChunk payload

/-- What a call of the chunked transport sends: a beginning of its chunk, all of it if the call succeeds. -/
def SendsChunk (piece : Bytes) (call : Write Error) : Prop :=
  piece <+: chunkOf call.payload ∧
    ∀ taken, call.answer = .ok taken → taken = call.payload.length ∧ piece = chunkOf call.payload

variable {pieces : List Bytes} {calls : List (Write Error)} {payload : Bytes}

/-- One call sends a whole chunk if it succeeds, and a beginning of one if it fails. -/
theorem sent_chunkedWrite (sink : Sink Error) (payload : Bytes) :
    ∃ piece, (ChunkedByteTransport.write Sink.write sink payload).2.sent = sink.sent ++ piece ∧
      SendsChunk piece ⟨payload, (ChunkedByteTransport.write Sink.write sink payload).1⟩ := by
  unfold ChunkedByteTransport.write
  by_cases hempty : payload.isEmpty
  · have hchunk : chunkOf payload = [] := if_pos hempty
    have hnil : payload = [] := List.isEmpty_iff.mp hempty
    rw [if_pos hempty]
    refine ⟨[], (append_nil _).symm, nil_prefix, ?_⟩
    rintro taken ⟨⟩
    exact ⟨by rw [hnil]; rfl, hchunk.symm⟩
  · have hchunk : chunkOf payload = encodeChunk payload := if_neg hempty
    obtain ⟨piece, hsent, hbegins, hall⟩ :=
      sink.sent_writeFully (.internal "Transport write returned zero bytes") (encodeChunk payload)
    rw [if_neg hempty]
    refine ⟨piece, ?_⟩
    cases hvalue : ((writeAll (encodeChunk payload)).run Sink.write sink).value with
    | error e =>
      dsimp only
      rw [hvalue]
      exact ⟨hsent, hchunk ▸ hbegins, nofun⟩
    | ok done =>
      dsimp only
      rw [hvalue]
      refine ⟨hsent, hchunk ▸ hbegins, ?_⟩
      rintro taken ⟨⟩
      exact ⟨rfl, hchunk ▸ hall hvalue⟩

/-- A run of a writer over the chunked transport, call by call. -/
theorem sent_run_chunked (writer : StreamWriter) (sink : Sink Error) :
    ∃ pieces, (writer.run (ChunkedByteTransport.write Sink.write) sink).state.sent = sink.sent ++ pieces.flatten ∧
      List.Forall₂ SendsChunk pieces (writer.run (ChunkedByteTransport.write Sink.write) sink).calls := by
  induction writer generalizing sink with
  | done value => exact ⟨[], (append_nil _).symm, List.Forall₂.nil⟩
  | write payload next ih =>
    obtain ⟨piece, hsent, hpiece⟩ := sent_chunkedWrite sink payload
    rw [WriteProgram.run_write]
    generalize ChunkedByteTransport.write Sink.write sink payload = step at hsent hpiece ⊢
    obtain ⟨answer, after⟩ := step
    obtain ⟨pieces, hrest, hpieces⟩ := ih answer after
    refine ⟨piece :: pieces, ?_, List.Forall₂.cons hpiece hpieces⟩
    dsimp only at hsent hrest ⊢
    rw [hrest, hsent, flatten_cons, append_assoc]

/-- If all calls succeed, the pieces are the chunks of what they report. -/
theorem pieces_of_succeeded (h : List.Forall₂ SendsChunk pieces calls) (hok : ∀ call ∈ calls, call.Succeeded) :
    pieces = (calls.map Write.payload).map chunkOf ∧ accepted calls = (calls.map Write.payload).flatten := by
  induction h with
  | nil => exact ⟨rfl, rfl⟩
  | @cons piece call pieces calls hpiece _ ih =>
    obtain ⟨hrest, haccepted⟩ := ih fun other hother => hok other (mem_cons_of_mem _ hother)
    have hcall := hok call (mem_cons_self ..)
    obtain ⟨payload, answer⟩ := call
    cases answer with
    | error e => nomatch hcall
    | ok taken =>
      obtain ⟨htaken, hchunk⟩ := hpiece.2 taken rfl
      refine ⟨by rw [hrest, hchunk]; rfl, ?_⟩
      rw [accepted_cons, haccepted, map_cons, flatten_cons]
      show payload.take taken ++ _ = payload ++ _
      rw [htaken]
      show payload.take payload.length ++ _ = payload ++ _
      rw [take_length]

theorem encodeChunk_append (payload rest : Bytes) :
    encodeChunk payload ++ rest = hexadecimal payload.length ++ (13 :: 10 :: (payload ++ 13 :: 10 :: rest)) := by
  simp [encodeChunk, kLineTerminator]

/-- Chunks and a final one decode to their payloads. -/
theorem decodeChunks_chunks (payloads : List Bytes) {fuel : Nat}
    (hfuel : ((payloads.map chunkOf).flatten ++ kFinalChunk).length ≤ fuel) :
    decodeChunks fuel ((payloads.map chunkOf).flatten ++ kFinalChunk) = some payloads.flatten := by
  induction payloads generalizing fuel with
  | nil =>
    obtain ⟨fuel, rfl⟩ : ∃ less, fuel = less + 1 :=
      Nat.exists_eq_add_one_of_ne_zero (Nat.pos_iff_ne_zero.mp (lt_of_lt_of_le (by decide) hfuel))
    exact decodeChunks_final fuel
  | cons payload payloads ih =>
    rw [map_cons, flatten_cons, append_assoc] at hfuel ⊢
    by_cases hempty : payload.isEmpty
    · have hnil : payload = [] := List.isEmpty_iff.mp hempty
      subst hnil
      exact ih hfuel
    · have hne : payload ≠ [] := mt List.isEmpty_iff.mpr hempty
      have hchunk : chunkOf payload = encodeChunk payload := if_neg hempty
      rw [hchunk, encodeChunk_append] at hfuel ⊢
      simp only [length_append, length_cons] at hfuel
      obtain ⟨fuel, rfl⟩ : ∃ less, fuel = less + 1 := Nat.exists_eq_add_one_of_ne_zero (by omega)
      rw [decodeChunks_append hne, ih (by rw [length_append]; omega)]
      rfl

theorem decodeChunks_piece {piece : Bytes} (hpiece : piece <+: chunkOf payload) (fuel : Nat) :
    decodeChunks fuel piece = none := by
  by_cases hempty : payload.isEmpty
  · have hchunk : chunkOf payload = [] := if_pos hempty
    rw [hchunk, prefix_nil] at hpiece
    rw [hpiece, decodeChunks_nil]
  · have hchunk : chunkOf payload = encodeChunk payload ++ [] := (if_neg hempty).trans (append_nil _).symm
    rw [hchunk, encodeChunk_append] at hpiece
    exact decodeChunks_of_begins (mt List.isEmpty_iff.mpr hempty) hpiece fuel

theorem decodeChunks_chunkOf_append {rest : Bytes} (h : ∀ fuel, decodeChunks fuel rest = none) (payload : Bytes)
    (fuel : Nat) : decodeChunks fuel (chunkOf payload ++ rest) = none := by
  by_cases hempty : payload.isEmpty
  · have hchunk : chunkOf payload = [] := if_pos hempty
    rw [hchunk]
    exact h fuel
  · have hchunk : chunkOf payload = encodeChunk payload := if_neg hempty
    rw [hchunk, encodeChunk_append]
    cases fuel with
    | zero => rfl
    | succ fuel =>
      rw [decodeChunks_append (mt List.isEmpty_iff.mpr hempty), h]
      rfl

/-- Pieces of which at most the last one is incomplete do not decode. -/
theorem decodeChunks_unfinished (h : List.Forall₂ SendsChunk pieces calls)
    (hcalls : ∀ call ∈ calls.dropLast, call.Succeeded) (fuel : Nat) : decodeChunks fuel pieces.flatten = none := by
  induction h generalizing fuel with
  | nil => exact decodeChunks_nil fuel
  | @cons piece call pieces calls hpiece hpieces ih =>
    rw [flatten_cons]
    cases hpieces with
    | nil =>
      rw [flatten_nil, append_nil]
      exact decodeChunks_piece hpiece.1 fuel
    | @cons next other pieces calls hnext hpieces =>
      rw [dropLast_cons_cons] at hcalls
      obtain ⟨hcall, hothers⟩ := forall_mem_cons.mp hcalls
      obtain ⟨payload, answer⟩ := call
      cases answer with
      | error e => nomatch hcall
      | ok taken =>
        rw [(hpiece.2 taken rfl).2]
        exact decodeChunks_chunkOf_append (ih hothers) payload fuel

/-! ## The head -/

/-- The headers that are written: a `Connection` header that speaks against closing is not. -/
def keptHeaders (options : HeaderOptions) (headers : List (Bytes × Bytes)) : List (Bytes × Bytes) :=
  headers.filter fun header => !(equalsAsciiCaseInsensitive header.1 kConnectionHeader &&
    options.mustCloseConnection && !options.responseRequestsClose)

theorem headerLines_append (headers headers' : List (Bytes × Bytes)) :
    headerLines (headers ++ headers') = headerLines headers ++ headerLines headers' := by
  simp [headerLines]

theorem validateResponseContentLength_eq_ok {bodySize : Nat} {value : Bytes} {isStreaming : Bool}
    (h : validateResponseContentLength bodySize value isStreaming = .ok ()) :
    isStreaming = false ∧ parseContentLength value = .ok bodySize := by
  unfold validateResponseContentLength at h
  cases isStreaming with
  | true => nomatch h
  | false =>
    cases hparse : parseContentLength value with
    | error e =>
      rw [if_neg Bool.false_ne_true, hparse] at h
      cases h
    | ok parsedLength =>
      rw [if_neg Bool.false_ne_true, hparse] at h
      dsimp only at h
      split_ifs at h with hsize
      exact ⟨rfl, by rw [not_not.mp hsize]⟩

/-- If the loop over the headers succeeds, these are the headers that it has kept. -/
theorem appendResponseHeaders_eq_ok {options : HeaderOptions} {headers : List (Bytes × Bytes)}
    {hasContentLength has : Bool} {text : Bytes}
    (h : appendResponseHeaders options headers hasContentLength payload = .ok (has, text)) :
    text = payload ++ headerLines (keptHeaders options headers) ∧
      has = (hasContentLength || headers.any fun header => equalsAsciiCaseInsensitive header.1 kContentLengthHeader) ∧
      (∀ header ∈ headers, ¬ equalsAsciiCaseInsensitive header.1 kTransferEncodingHeader) ∧
      ∀ header ∈ headers, equalsAsciiCaseInsensitive header.1 kContentLengthHeader →
        options.isStreaming = false ∧ parseContentLength header.2 = .ok options.bodySize := by
  induction headers generalizing hasContentLength payload with
  | nil =>
    cases h
    exact ⟨(append_nil _).symm, (Bool.or_false _).symm, nofun, nofun⟩
  | cons header headers ih =>
    obtain ⟨name, value⟩ := header
    unfold appendResponseHeaders at h
    by_cases htransfer : equalsAsciiCaseInsensitive name kTransferEncodingHeader
    · rw [if_pos htransfer] at h
      cases h
    · rw [if_neg htransfer] at h
      dsimp only at h
      split at h
      · cases h
      · next hvalid =>
        -- what the length check has established, whether the line is kept or not
        have hlength : equalsAsciiCaseInsensitive name kContentLengthHeader →
            options.isStreaming = false ∧ parseContentLength value = .ok options.bodySize := by
          intro hnamed
          rw [if_pos hnamed] at hvalid
          exact validateResponseContentLength_eq_ok hvalid
        split_ifs at h with hdropped
        · obtain ⟨htext, hhas, htransfers, hlengths⟩ := ih h
          have hkept : keptHeaders options ((name, value) :: headers) = keptHeaders options headers :=
            filter_cons_of_neg (by simp [hdropped])
          refine ⟨by rw [hkept, htext], by rw [hhas, any_cons, Bool.or_assoc], ?_, ?_⟩
          · exact forall_mem_cons.mpr ⟨htransfer, htransfers⟩
          · exact forall_mem_cons.mpr ⟨hlength, hlengths⟩
        · obtain ⟨htext, hhas, htransfers, hlengths⟩ := ih h
          have hkept : keptHeaders options ((name, value) :: headers) = (name, value) :: keptHeaders options headers :=
            filter_cons_of_pos (by simp only [Bool.eq_false_iff.mpr hdropped, Bool.not_false])
          refine ⟨?_, by rw [hhas, any_cons, Bool.or_assoc], ?_, ?_⟩
          · rw [hkept, htext, append_assoc]
            rfl
          · exact forall_mem_cons.mpr ⟨htransfer, htransfers⟩
          · exact forall_mem_cons.mpr ⟨hlength, hlengths⟩

namespace HttpServerResponse

/-- The response has a `Content-Length` header of its own. -/
def hasContentLength (response : HttpServerResponse) : Bool :=
  response.headers.rows.any fun header => equalsAsciiCaseInsensitive header.1 kContentLengthHeader

/-- The headers in the order in which they are written. -/
def writtenHeaders (response : HttpServerResponse) (closeConnection : Bool) : List (Bytes × Bytes) :=
  keptHeaders (response.headerOptions closeConnection) response.headers.rows ++
    response.ownHeaders closeConnection response.hasContentLength

/-- What is known about the headers of a response that passed the checks. -/
structure HeadersPass (response : HttpServerResponse) : Prop where
  no_transferEncoding : ∀ header ∈ response.headers.rows,
    ¬ equalsAsciiCaseInsensitive header.1 kTransferEncodingHeader = true
  contentLength : ∀ header ∈ response.headers.rows,
    equalsAsciiCaseInsensitive header.1 kContentLengthHeader = true →
      response.streamWriter.isSome = false ∧ parseContentLength header.2 = .ok response.body.length

theorem head_eq_ok {response : HttpServerResponse} {closeConnection : Bool} {head : Bytes}
    (h : response.head closeConnection = .ok head) :
    head = response.statusLine ++ kLineTerminator ++ headerLines (response.writtenHeaders closeConnection) ++
      kLineTerminator ∧ response.HeadersPass := by
  unfold HttpServerResponse.head at h
  cases happend : appendResponseHeaders (response.headerOptions closeConnection) response.headers.rows false
      (response.statusLine ++ kLineTerminator) with
  | error e =>
    rw [happend] at h
    cases h
  | ok appended =>
    obtain ⟨has, payload⟩ := appended
    obtain ⟨hpayload, hhas, htransfer, hlength⟩ := appendResponseHeaders_eq_ok happend
    rw [happend] at h
    refine ⟨?_, htransfer, hlength⟩
    rw [← Except.ok.inj h, hpayload, hhas, writtenHeaders, headerLines_append]
    simp only [append_assoc]
    rfl

end HttpServerResponse

/-! ## Reading the head -/

/-- A header as the decoder sees it: the blank behind the colon belongs to the text. -/
def decodedHeader (header : Bytes × Bytes) : Bytes × Bytes := (header.1, 32 :: header.2)

/-- A header that can be written: a token, and a value without line ends. -/
def Writable (header : Bytes × Bytes) : Prop := IsToken header.1 ∧ ∀ b ∈ header.2, b ≠ 13 ∧ b ≠ 10

instance (header : Bytes × Bytes) : Decidable (Writable header) :=
  inferInstanceAs (Decidable (IsToken header.1 ∧ ∀ b ∈ header.2, b ≠ 13 ∧ b ≠ 10))

/-- Writable headers are field lines, and the decoder reads them back. -/
theorem exists_fields {headers : List (Bytes × Bytes)} (h : ∀ header ∈ headers, Writable header) :
    ∃ fields : List HeaderField, kLineTerminator ++ headerLines headers = fieldLines fields ++ kLineTerminator ∧
      (fields.map HeaderField.line).mapM decodeField = some (headers.map decodedHeader) := by
  induction headers with
  | nil => exact ⟨[], rfl, rfl⟩
  | cons header headers ih =>
    obtain ⟨fields, hlines, hdecode⟩ := ih fun other hother => h other (mem_cons_of_mem _ hother)
    obtain ⟨⟨hne, htoken⟩, hvalue⟩ := h header (mem_cons_self ..)
    let field : HeaderField :=
      ⟨header.1, 32 :: header.2, hne, fun b hb => plain_of_isTokenByte b (htoken b hb),
        forall_mem_cons.mpr ⟨by decide, hvalue⟩⟩
    refine ⟨field :: fields, ?_, ?_⟩
    · have hfirst : kLineTerminator ++ headerLines (header :: headers) =
          kLineTerminator ++ field.line ++ (kLineTerminator ++ headerLines headers) := by
        have hseparator : kHeaderNameValueSeparator = [58, 32] := rfl
        simp [headerLines, headerLine, HeaderField.line, field, hseparator]
      have hrest : fieldLines (field :: fields) = kLineTerminator ++ field.line ++ fieldLines fields := rfl
      rw [hfirst, hlines, hrest, append_assoc (kLineTerminator ++ field.line)]
    · have hline : decodeField field.line = some (decodedHeader header) := decodeField_line ⟨hne, htoken⟩ _
      rw [map_cons, mapM_cons, hline, hdecode]
      rfl

namespace HttpServerResponse

variable {response : HttpServerResponse}

theorem notMem_reasonPhrase (statusCode : Int) : 13 ∉ reasonPhrase statusCode := by
  unfold reasonPhrase
  split <;> decide

theorem notMem_statusLine (hstatus : 0 ≤ response.statusCode) : 13 ∉ response.statusLine := by
  rw [statusLine, toDecimal_of_nonneg hstatus]
  simp only [mem_append, mem_cons, not_or]
  refine ⟨by decide, by decide, ?_, by decide, notMem_reasonPhrase _⟩
  intro hmem
  exact absurd (isDigitByte_of_mem_decimal hmem) (by decide)

theorem length_decimal : ∀ n < 1000, 100 ≤ n → (decimal n).length = 3 := by
  decide +kernel

theorem decodeStatusLine_statusLine (hlow : 100 ≤ response.statusCode) (hhigh : response.statusCode ≤ 999) :
    decodeStatusLine response.statusLine = some response.statusCode.toNat := by
  obtain ⟨a, b, c, hdigits⟩ := length_eq_three.mp (length_decimal response.statusCode.toNat (by omega) (by omega))
  have hdigit : ∀ d ∈ [a, b, c], isDigitByte d := fun d hd => isDigitByte_of_mem_decimal (hdigits ▸ hd)
  have hline : response.statusLine = bytes "HTTP/1.1 " ++ (a :: b :: c :: 32 :: reasonPhrase response.statusCode) := by
    rw [statusLine, toDecimal_of_nonneg (by omega), hdigits]
    rfl
  have hcheck : (isDigitByte a && isDigitByte b && isDigitByte c) := by
    simp [hdigit a, hdigit b, hdigit c]
  have hvalue : decimalValue [a, b, c] = response.statusCode.toNat := by
    rw [← hdigits, decimalValue_decimal]
  rw [decodeStatusLine, hline]
  show (if bytes "HTTP/1.1 " = bytes "HTTP/1.1 " then _ else _) = _
  rw [if_pos rfl]
  show (if (isDigitByte a && isDigitByte b && isDigitByte c) then _ else _) = _
  rw [if_pos hcheck, hvalue]

/-- A written head and whatever comes behind it, as the decoder reads them. -/
theorem decodeResponse_head (hlow : 100 ≤ response.statusCode) (hhigh : response.statusCode ≤ 999)
    (hbody : PermitsBody response.statusCode.toNat) {headers : List (Bytes × Bytes)}
    (hheaders : ∀ header ∈ headers, Writable header) (text : Bytes) :
    decodeResponse (response.statusLine ++ kLineTerminator ++ headerLines headers ++ kLineTerminator ++ text) =
      (decodeFraming (headers.map decodedHeader)).bind fun framing =>
        (decodeBody framing text).map fun body =>
          ⟨response.statusCode.toNat, headers.map decodedHeader, framing, body⟩ := by
  obtain ⟨fields, hlines, hdecode⟩ := exists_fields hheaders
  have hstart : 13 ∉ response.statusLine := notMem_statusLine (by omega)
  have htext : response.statusLine ++ kLineTerminator ++ headerLines headers ++ kLineTerminator ++ text =
      response.statusLine ++ fieldLines fields ++ (kHeaderDelimiter ++ text) := by
    rw [append_assoc response.statusLine, hlines]
    simp [kLineTerminator, kHeaderDelimiter]
  have hbreak : breakOn [13, 10, 13, 10] (response.statusLine ++ fieldLines fields ++ (kHeaderDelimiter ++ text)) =
      some (response.statusLine ++ fieldLines fields, text) := breakOn_head hstart fields text
  have hsplit : splitOn [13, 10] (response.statusLine ++ fieldLines fields) =
      response.statusLine :: fields.map HeaderField.line := splitOn_head hstart fields
  rw [htext, decodeResponse, hbreak]
  dsimp only
  rw [hsplit]
  dsimp only
  rw [decodeStatusLine_statusLine hlow hhigh, hdecode]
  simp only [Option.bind_eq_bind, Option.bind_some, if_pos hbody, Option.map_eq_bind, Function.comp_def]

end HttpServerResponse

end A2A.Server.Transport
