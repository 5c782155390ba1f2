/-
# Well-formed requests on one connection.
-/
import A2A.Server.Transport.HttpFields
import A2A.Server.Transport.HttpRequestReader

namespace A2A.Server.Transport

open A2A.Foundation A2A.Core List

/-! ## Requests on the wire -/

/-- A well-formed HTTP/1.1 request with an origin-form target. -/
structure WireRequest where
  method : Bytes
  target : Bytes
  fields : List HeaderField
  body : Bytes
  method_ne : method ≠ []
  method_noSpace : ∀ b ∈ method, isSpace b = false
  target_origin : target.head? = some 47
  target_noSpace : ∀ b ∈ target, isSpace b = false
  target_noScheme : ¬ bytes "://" <:+: target
  fields_ne : fields ≠ []
  names_distinct : (fields.map fun field => toLowerAscii field.name).Nodup
  no_transferEncoding : ∀ field ∈ fields, ¬ field.Named kTransferEncodingHeader
  contentLength_digits : ∀ field ∈ fields, field.Named kContentLengthHeader →
    trimAsciiWhitespace field.text ≠ [] ∧ (∀ b ∈ trimAsciiWhitespace field.text, isDigitByte b = true) ∧
      decimalValue (trimAsciiWhitespace field.text) = body.length
  no_body : (∀ field ∈ fields, ¬ field.Named kContentLengthHeader) → body = []

namespace WireRequest

def requestLine (request : WireRequest) : Bytes :=
  request.method ++ 32 :: (request.target ++ 32 :: kHttpVersion11)

/-- All lines up to the blank one. -/
def headerBlock (request : WireRequest) : Bytes := request.requestLine ++ fieldLines request.fields

def encode (request : WireRequest) : Bytes := request.headerBlock ++ kHeaderDelimiter ++ request.body

def headers (request : WireRequest) : HttpHeaders where
  rows := request.fields.map HeaderField.entry
  unique := by
    have hnames : (request.fields.map HeaderField.name).Nodup := by
      apply List.Nodup.of_map toLowerAscii
      rw [List.map_map]
      exact request.names_distinct
    rw [List.map_map]
    exact hnames

/-- The request as the server is to see it. -/
def toServer (request : WireRequest) (remoteAddress : Bytes) : HttpServerRequest :=
  ⟨request.method, request.target, request.headers, request.body, remoteAddress⟩

/-! ## The header block -/

variable {field : HeaderField} {contentLength : Option Nat} {headers : HttpHeaders}

section

variable (request : WireRequest)

include request

theorem notMem_requestLine : 13 ∉ request.requestLine := by
  intro hmem
  rcases mem_append.mp hmem with hmethod | hmem
  · exact absurd (request.method_noSpace 13 hmethod) (by decide)
  · rcases mem_cons.mp hmem with hblank | hmem
    · exact absurd hblank (by decide)
    · rcases mem_append.mp hmem with htarget | hversion
      · exact absurd (request.target_noSpace 13 htarget) (by decide)
      · exact absurd hversion (by decide)

theorem words_requestLine : words request.requestLine = [request.method, request.target, kHttpVersion11] := by
  have htarget : request.target ≠ [] := by
    intro hnil
    have horigin := request.target_origin
    rw [hnil] at horigin
    cases horigin
  rw [requestLine, words_append_cons request.method_ne request.method_noSpace (by decide),
    words_append_cons htarget request.target_noSpace (by decide), words_singleton (by decide) (by decide +kernel)]

theorem breakOn_headerBlock (rest : Bytes) :
    breakOn kHeaderDelimiter (request.headerBlock ++ (kHeaderDelimiter ++ rest)) =
      some (request.headerBlock, rest) := breakOn_head request.notMem_requestLine request.fields rest

theorem exists_firstLine : ∃ field fields, request.fields = field :: fields ∧
    breakOn kLineTerminator request.headerBlock = some (request.requestLine, field.line ++ fieldLines fields) := by
  obtain ⟨field, fields, hfields⟩ := exists_cons_of_ne_nil request.fields_ne
  have htext : request.headerBlock = request.requestLine ++ (kLineTerminator ++ (field.line ++ fieldLines fields)) := by
    simp [headerBlock, hfields, fieldLines]
  rw [htext]
  exact ⟨field, fields, hfields, breakOn_of_notMem request.notMem_requestLine _⟩

theorem parseRequestLine_headerBlock :
    parseRequestLine request.headerBlock = .ok (request.method, request.target) := by
  obtain ⟨field, fields, -, hblock⟩ := request.exists_firstLine
  have htarget : normalizeRequestTarget request.target = request.target := by
    refine (normalizeRequestTarget_eq_self_iff ?_).mpr request.target_noScheme
    intro hnil
    cases hnil ▸ request.target_origin
  unfold parseRequestLine
  rw [hblock]
  dsimp only
  rw [words_requestLine]
  simp only [ne_eq, not_true_eq_false, if_false, htarget]

end

/-! ## The header map -/

theorem parseContentLength_digits {text : Bytes} (hne : trimAsciiWhitespace text ≠ [])
    (hdigits : ∀ b ∈ trimAsciiWhitespace text, isDigitByte b)
    (hvalue : decimalValue (trimAsciiWhitespace text) < sizeValues) :
    parseContentLength (trimAsciiWhitespace text) = .ok (decimalValue (trimAsciiWhitespace text)) := by
  have htrim : trimAsciiWhitespace (trimAsciiWhitespace text) = trimAsciiWhitespace text :=
    trimAsciiWhitespace_of_noSpace fun b hb => isSpace_of_isDigitByte (hdigits b hb)
  unfold parseContentLength
  simp only [htrim, List.isEmpty_iff, hne, if_false, fromCharsUnsigned_digits hne hdigits hvalue, not_le.mpr hvalue]

theorem noteContentLength_field (request : WireRequest) (hsize : request.body.length < sizeValues)
    (hfield : field ∈ request.fields) (hlength : contentLength = none ∨ contentLength = some request.body.length) :
    ∃ contentLength', noteContentLength field.name (trimAsciiWhitespace field.text) contentLength =
        .ok contentLength' ∧ (contentLength' = contentLength ∨ contentLength' = some request.body.length) ∧
      (field.Named kContentLengthHeader → contentLength' = some request.body.length) := by
  unfold noteContentLength
  by_cases hnamed : equalsAsciiCaseInsensitive field.name kContentLengthHeader
  · obtain ⟨hne, hdigits, hvalue⟩ := request.contentLength_digits field hfield hnamed
    rw [if_pos hnamed, parseContentLength_digits hne hdigits (hvalue ▸ hsize), hvalue]
    have hagree : ¬ (contentLength.isSome ∧ contentLength ≠ some request.body.length) := by
      rintro ⟨hsome, hother⟩
      rcases hlength with rfl | rfl
      · cases hsome
      · exact hother rfl
    dsimp only
    rw [if_neg hagree]
    exact ⟨_, rfl, .inr rfl, fun _ => rfl⟩
  · rw [if_neg hnamed]
    exact ⟨contentLength, rfl, .inl rfl, fun h => absurd h hnamed⟩

theorem rows_storeHeader {name value : Bytes}
    (hfresh : ∀ header ∈ headers.rows, toLowerAscii header.1 ≠ toLowerAscii name) :
    (storeHeader name value headers).rows = headers.rows ++ [(name, value)] := by
  have hput : (headers.put (name, value)).rows = headers.rows ++ [(name, value)] := by
    apply Table.rows_put_of_notMem
    intro hmem
    obtain ⟨header, hheader, hname⟩ := mem_map.mp hmem
    exact hfresh header hheader (congrArg toLowerAscii hname)
  unfold storeHeader
  by_cases hnamed : equalsAsciiCaseInsensitive name kConnectionHeader
  · have hnone : headers.rows.find? (fun header => equalsAsciiCaseInsensitive header.1 kConnectionHeader) = none := by
      rw [List.find?_eq_none]
      intro header hheader hconnection
      apply hfresh header hheader
      exact (of_decide_eq_true hconnection).trans (of_decide_eq_true hnamed).symm
    rw [if_pos hnamed, hnone]
    exact hput
  · rw [if_neg hnamed]
    exact hput

section

variable (request : WireRequest) (hsize : request.body.length < sizeValues)

include request hsize

theorem parseHeaderLine_field
    (hfield : field ∈ request.fields) (hlength : contentLength = none ∨ contentLength = some request.body.length)
    (hfresh : ∀ header ∈ headers.rows, toLowerAscii header.1 ≠ toLowerAscii field.name) :
    ∃ headers' contentLength', parseHeaderLine (headers, contentLength) field.line = .ok (headers', contentLength') ∧
      headers'.rows = headers.rows ++ [field.entry] ∧
      (contentLength' = contentLength ∨ contentLength' = some request.body.length) ∧
      (field.Named kContentLengthHeader → contentLength' = some request.body.length) := by
  have hcolon : (58 : UInt8) ∉ field.name := fun hmem => (field.name_plain 58 hmem).2 rfl
  have hbreak : breakOn (bytes ":") field.line = some (field.name, field.text) := breakOn_of_notMem hcolon field.text
  have htrim : trimAsciiWhitespace field.name = field.name := trimAsciiWhitespace_of_noSpace field.name_noSpace
  obtain ⟨contentLength', hnote, hor, hnamed⟩ := noteContentLength_field request hsize hfield hlength
  unfold parseHeaderLine
  rw [hbreak]
  split
  · next hEq => nomatch hEq
  · next hEq => exact absurd (Prod.mk.inj (Option.some.inj hEq)).1 field.name_ne
  · next before after _ hEq =>
      cases hEq
      have htransfer : ¬ equalsAsciiCaseInsensitive field.name kTransferEncodingHeader :=
        request.no_transferEncoding field hfield
      simp only [htrim, List.isEmpty_iff, field.name_ne, htransfer, if_false, hnote]
      exact ⟨_, contentLength', rfl, rows_storeHeader hfresh, hor, hnamed⟩

/-- The loop over the lines stores all fields, and the announced length. -/
theorem parseHeaderLines_fields (fields : List HeaderField) (hfields : ∀ field ∈ fields, field ∈ request.fields)
    (hdistinct : (fields.map fun field => toLowerAscii field.name).Nodup)
    (hlength : contentLength = none ∨ contentLength = some request.body.length)
    (hfresh : ∀ header ∈ headers.rows, ∀ field ∈ fields, toLowerAscii header.1 ≠ toLowerAscii field.name) :
    ∃ headers' contentLength', parseHeaderLines (fields.map HeaderField.line) (headers, contentLength) =
        .ok (headers', contentLength') ∧
      headers'.rows = headers.rows ++ fields.map HeaderField.entry ∧
      (contentLength' = contentLength ∨ contentLength' = some request.body.length) ∧
      ((∃ field ∈ fields, field.Named kContentLengthHeader) → contentLength' = some request.body.length) := by
  induction fields generalizing headers contentLength with
  | nil =>
    refine ⟨headers, contentLength, rfl, (append_nil _).symm, .inl rfl, ?_⟩
    rintro ⟨field, hmem, -⟩
    cases hmem
  | cons field fields ih =>
    obtain ⟨hfirst, hrest⟩ := nodup_cons.mp hdistinct
    obtain ⟨headers₁, length₁, hline, hrows₁, hor₁, hnamed₁⟩ := parseHeaderLine_field request hsize
      (hfields field (mem_cons_self ..)) hlength fun header hheader =>
        hfresh header hheader field (mem_cons_self ..)
    have hlength₁ : length₁ = none ∨ length₁ = some request.body.length := by
      rcases hor₁ with rfl | h
      · exact hlength
      · exact .inr h
    -- the names differ, so the later lines are as fresh for the stored fields as this one was
    obtain ⟨headers₂, length₂, hlines, hrows₂, hor₂, hnamed₂⟩ := ih
      (fun other hother => hfields other (mem_cons_of_mem _ hother)) hrest hlength₁ (by
        intro header hheader other hother
        rw [hrows₁] at hheader
        rcases mem_append.mp hheader with hold | hnew
        · exact hfresh header hold other (mem_cons_of_mem _ hother)
        · rw [mem_singleton.mp hnew]
          intro hEq
          exact hfirst (mem_map.mpr ⟨other, hother, hEq.symm⟩))
    have hne : ¬ field.line.isEmpty := by
      obtain ⟨b, rest, hb, -⟩ := field.line_eq_cons
      rw [hb]
      exact Bool.false_ne_true
    refine ⟨headers₂, length₂, ?_, ?_, ?_, ?_⟩
    · rw [map_cons, parseHeaderLines, if_neg hne, hline]
      exact hlines
    · rw [hrows₂, hrows₁, append_assoc]
      rfl
    · rcases hor₂ with rfl | h
      · exact hor₁
      · exact .inr h
    · rintro ⟨other, hother, hname⟩
      rcases mem_cons.mp hother with rfl | hother
      · rcases hor₂ with rfl | h
        · exact hnamed₁ hname
        · exact h
      · exact hnamed₂ ⟨other, hother, hname⟩

/-- The head of a request is read back. -/
theorem parseHeaders_headerBlock :
    ∃ contentLength, parseHeaders request.headerBlock = .ok (request.headers, contentLength) ∧
      contentLength.getD 0 = request.body.length := by
  obtain ⟨field, fields, hfields, hblock⟩ := request.exists_firstLine
  have hfresh : ∀ header ∈ (Table.empty : HttpHeaders).rows, ∀ field ∈ request.fields,
      toLowerAscii header.1 ≠ toLowerAscii field.name := nofun
  obtain ⟨headers, contentLength, hlines, hrows, hor, hnamed⟩ := parseHeaderLines_fields request hsize request.fields
    (fun _ hmem => hmem) request.names_distinct (.inl rfl) hfresh
  have hheaders : headers = request.headers := Table.ext hrows
  refine ⟨contentLength, ?_, ?_⟩
  · rw [parseHeaders, hblock]
    show parseHeaderLines (splitOn kLineTerminator (field.line ++ fieldLines fields)) _ = _
    rw [splitOn_head field.notMem_line, ← map_cons, ← hfields, hlines, hheaders]
  · by_cases hany : ∃ field ∈ request.fields, field.Named kContentLengthHeader
    · rw [hnamed hany]
      rfl
    · have hbody := request.no_body fun field hmem hname => hany ⟨field, hmem, hname⟩
      rcases hor with rfl | h
      · rw [hbody]
        rfl
      · rw [h]
        rfl

end

/-! ## Pipelining -/

/-- An encoded request is read off a stream, and the rest of the stream is left. -/
theorem readStream_encode (request : WireRequest) {maxRequestSize : Nat} (hmax : maxRequestSize < sizeValues)
    (hsize : request.encode.length ≤ maxRequestSize) (remoteAddress rest : Bytes) :
    readStream maxRequestSize remoteAddress (request.encode ++ rest) =
      some (request.toServer remoteAddress, rest) := by
  have hlength : request.encode.length = request.headerBlock.length + kHeaderDelimiter.length + request.body.length := by
    rw [encode, length_append, length_append]
  obtain ⟨contentLength, hheaders, hcontent⟩ := parseHeaders_headerBlock request (by omega)
  have hstream : request.encode ++ rest = request.headerBlock ++ (kHeaderDelimiter ++ (request.body ++ rest)) := by
    simp only [encode, append_assoc]
  unfold readStream
  rw [hstream, breakOn_headerBlock]
  dsimp only
  rw [parseRequestLine_headerBlock, hheaders]
  dsimp only
  rw [hcontent, if_pos ⟨by omega, by rw [length_append]; omega⟩, take_left, drop_left]
  rfl

end WireRequest

/-- All requests of a well-formed stream are read, in order, and no byte is left over. -/
theorem readRequests_encode {options : HttpAdapterOptions} (hbuffer : options.readBufferSize ≠ 0)
    (remoteAddress : Bytes) (requests : List WireRequest)
    (hsize : ∀ request ∈ requests, request.encode.length ≤ options.maxRequestSize.toNat)
    {connection : HttpConnection} (hstream : connection.stream = (requests.map WireRequest.encode).flatten) :
    (HttpAdapter.readRequests options remoteAddress requests.length connection).1 =
        requests.map (fun request => .ok (request.toServer remoteAddress)) ∧
      (HttpAdapter.readRequests options remoteAddress requests.length connection).2.stream = [] := by
  induction requests generalizing connection with
  | nil => exact ⟨rfl, hstream⟩
  | cons request requests ih =>
    have hread := request.readStream_encode options.maxRequestSize.toNat_lt
      (hsize request (mem_cons_self ..)) remoteAddress (requests.map WireRequest.encode).flatten
    rw [map_cons, flatten_cons] at hstream
    rw [← hstream] at hread
    obtain ⟨connection', hrequest, hrest⟩ := HttpAdapter.ok_of_readStream hbuffer hread
    obtain ⟨hrequests, hleft⟩ := ih (fun other hother => hsize other (mem_cons_of_mem _ hother)) hrest
    simp only [length_cons, HttpAdapter.readRequests, hrequest, hrequests, map_cons, true_and]
    exact hleft

/-- Reading requests off a connection: well-formed streams are read completely, acceptance does not depend on how
the stream is cut into reads, and an accepted request keeps within the size limit. -/
theorem readRequest_is_stream_reading (options : HttpAdapterOptions) (remoteAddress : Bytes) :
    (options.readBufferSize ≠ 0 → ∀ (requests : List WireRequest) (connection : HttpConnection),
      (∀ request ∈ requests, request.encode.length ≤ options.maxRequestSize.toNat) →
      connection.stream = (requests.map WireRequest.encode).flatten →
      (HttpAdapter.readRequests options remoteAddress requests.length connection).1 =
          requests.map (fun request => .ok (request.toServer remoteAddress)) ∧
        (HttpAdapter.readRequests options remoteAddress requests.length connection).2.stream = []) ∧
    (∀ connection other : HttpConnection, connection.stream = other.stream →
      (HttpAdapter.readRequest options remoteAddress connection).1.isOk =
        (HttpAdapter.readRequest options remoteAddress other).1.isOk) ∧
    (∀ connection request connection',
      HttpAdapter.readRequest options remoteAddress connection = (.ok request, connection') →
      ∃ occupied, connection.stream = occupied ++ connection'.stream ∧
        occupied.length ≤ options.maxRequestSize.toNat) := by
  refine ⟨?_, ?_, ?_⟩
  · intro hbuffer requests connection hsize hstream
    exact readRequests_encode hbuffer remoteAddress requests hsize hstream
  · intro connection other hsame
    exact HttpAdapter.isOk_readRequest_congr options remoteAddress hsame
  · intro connection request connection' hread
    exact readStream_occupies (HttpAdapter.readStream_of_ok hread)

/-- A request without a body, and one with a body, delivered byte by byte through a one-byte buffer. -/
theorem pipelined_requests_are_read :
    ∃ get post : WireRequest, get.encode = bytes "GET /tasks HTTP/1.1\r\nHost: a\r\n\r\n" ∧
      post.encode = bytes "POST /rpc HTTP/1.1\r\ncontent-length: 2\r\n\r\n\x7b\x7d" ∧
      (HttpAdapter.readRequests ⟨1024, 1⟩ [] 2
        ⟨(get.encode ++ post.encode).map fun b => .ok [b], []⟩).1 = [.ok (get.toServer []), .ok (post.toServer [])] := by
  let host : HeaderField := ⟨bytes "Host", bytes " a", by decide +kernel, by decide +kernel, by decide +kernel⟩
  let length : HeaderField :=
    ⟨bytes "content-length", bytes " 2", by decide +kernel, by decide +kernel, by decide +kernel⟩
  let get : WireRequest := by
    refine ⟨bytes "GET", bytes "/tasks", [host], [], ?_, ?_, ?_, ?_, ?_, ?_, ?_, ?_, ?_, ?_⟩ <;> decide +kernel
  let post : WireRequest := by
    refine ⟨bytes "POST", bytes "/rpc", [length], bytes "\x7b\x7d", ?_, ?_, ?_, ?_, ?_, ?_, ?_, ?_, ?_, ?_⟩ <;>
      decide +kernel
  refine ⟨get, post, by decide +kernel, by decide +kernel, ?_⟩
  apply ((readRequest_is_stream_reading ⟨1024, 1⟩ []).1 (by decide) [get, post] _ _ _).1
  · decide +kernel
  · decide +kernel

end A2A.Server.Transport
