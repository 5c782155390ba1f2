/-
# Reading HTTP/1.1 requests (`a2a/server/http_adapter.h`).
-/
import A2A.Core.Error
import A2A.Core.StringUtils
import A2A.Foundation.Search
import A2A.Foundation.Table

namespace A2A.Server.Transport

open A2A.Foundation A2A.Core

/-! ## Constants (`a2a/core/http_constants.h`) -/

def kLineTerminator : Bytes := [13, 10]
def kHeaderDelimiter : Bytes := [13, 10, 13, 10]
def kHttpVersion11 : Bytes := "HTTP/1.1"
def kTransferEncodingHeader : Bytes := "transfer-encoding"
def kContentLengthHeader : Bytes := "content-length"
def kConnectionHeader : Bytes := "connection"

/-- The number of values of `std::size_t` and of `std::uint64_t`. -/
def sizeValues : Nat := 2 ^ 64

/-! ## Requests -/

/-- `std::unordered_map<std::string, std::string>`. -/
abbrev HttpHeaders := Table fun header : Bytes × Bytes => header.1

/-- `HttpServerRequest`. -/
structure HttpServerRequest where
  method : Bytes
  target : Bytes
  headers : HttpHeaders
  body : Bytes
  remoteAddress : Bytes

/-- `HttpAdapter::Options`. -/
structure HttpAdapterOptions where
  maxRequestSize : UInt64 := 1024 * 1024
  readBufferSize : UInt64 := 4096

/-- A transport and its `HttpConnectionState`. -/
structure HttpConnection where
  reads : List (Result Bytes)
  bufferedBytes : Bytes := []

/-! ## Parsing a header block -/

/-- `NormalizeRequestTarget`. -/
def normalizeRequestTarget (target : Bytes) : Bytes :=
  if target.isEmpty then "/"
  else
    match breakOn "://" target with
    | none => target
    | some (_, authority) =>
      match breakOn "/" authority with
      | none => "/"
      | some (_, path) => bytes "/" ++ path

/-- `ParseContentLength`. -/
def parseContentLength (value : Bytes) : Result Nat :=
  let trimmed := trimAsciiWhitespace value
  if trimmed.isEmpty then .error (.validation "Content-Length header is empty")
  else
    match fromCharsUnsigned sizeValues trimmed with
    | .ok (parsed, []) =>
      if sizeValues ≤ parsed then .error (.validation "Content-Length value overflows platform size_t")
      else .ok parsed
    | _ => .error (.validation "Content-Length header is not a valid unsigned integer")

/-- `ParseRequestLine`: the method and the normalized target. -/
def parseRequestLine (headerBlock : Bytes) : Result (Bytes × Bytes) :=
  match breakOn kLineTerminator headerBlock with
  | none => .error (.validation "HTTP request line is missing")
  | some (line, _) =>
    match words line with
    | method :: target :: version :: _ =>
      if version ≠ kHttpVersion11 then .error (.validation "Unsupported HTTP version in request line")
      else .ok (method, normalizeRequestTarget target)
    | _ => .error (.validation "Malformed HTTP request line")

/-- The part of `ParseHeaderLine` about `Content-Length`. -/
def noteContentLength (name value : Bytes) (contentLength : Option Nat) : Result (Option Nat) :=
  if equalsAsciiCaseInsensitive name kContentLengthHeader then
    match parseContentLength value with
    | .error e => .error e
    | .ok parsed =>
      if contentLength.isSome ∧ contentLength ≠ some parsed then
        .error (.validation "Conflicting Content-Length header values")
      else .ok (some parsed)
  else .ok contentLength

/-- The end of `ParseHeaderLine`: a second `Connection` line is joined to the first. -/
def storeHeader (name value : Bytes) (headers : HttpHeaders) : HttpHeaders :=
  if equalsAsciiCaseInsensitive name kConnectionHeader then
    match headers.rows.find? fun header => equalsAsciiCaseInsensitive header.1 kConnectionHeader with
    | some (existingName, existingValue) => headers.put (existingName, existingValue ++ bytes ", " ++ value)
    | none => headers.put (name, value)
  else headers.put (name, value)

/-- `ParseHeaderLine`. -/
def parseHeaderLine (parsed : HttpHeaders × Option Nat) (line : Bytes) : Result (HttpHeaders × Option Nat) :=
  match breakOn ":" line with
  | none | some ([], _) => .error (.validation "Malformed HTTP header line")
  | some (before, after) =>
    let name := trimAsciiWhitespace before
    let value := trimAsciiWhitespace after
    if name.isEmpty then .error (.validation "HTTP header name cannot be empty")
    else if equalsAsciiCaseInsensitive name kTransferEncodingHeader then
      .error (.validation "Transfer-Encoding is not supported")
    else
      match noteContentLength name value parsed.2 with
      | .error e => .error e
      | .ok contentLength => .ok (storeHeader name value parsed.1, contentLength)

/-- The loop of `ParseHeaders`. -/
def parseHeaderLines : List Bytes → HttpHeaders × Option Nat → Result (HttpHeaders × Option Nat)
  | [], parsed => .ok parsed
  | line :: lines, parsed =>
    if line.isEmpty then parseHeaderLines lines parsed
    else
      match parseHeaderLine parsed line with
      | .error e => .error e
      | .ok parsed => parseHeaderLines lines parsed

/-- `ParseHeaders`. Without a line terminator the first offset wraps round to one. -/
def parseHeaders (headerBlock : Bytes) : Result (HttpHeaders × Option Nat) :=
  let rest := ((breakOn kLineTerminator headerBlock).map Prod.snd).getD (headerBlock.drop 1)
  parseHeaderLines (splitOn kLineTerminator rest) (.empty, none)

/-! ## Reading -/

namespace HttpAdapter

/-- `ReadUntilHeadersComplete`. -/
def readUntilHeadersComplete (maxRequestSize : Nat) : List (Result Bytes) → Bytes → Result Unit × HttpConnection
  | [], raw =>
    if (breakOn kHeaderDelimiter raw).isSome then (.ok (), ⟨[], raw⟩)
    else (.error (.internal "Unexpected end of stream while reading HTTP headers"), ⟨[], raw⟩)
  | read :: reads, raw =>
    if (breakOn kHeaderDelimiter raw).isSome then (.ok (), ⟨read :: reads, raw⟩)
    else
      match read with
      | .error e => (.error e, ⟨reads, raw⟩)
      | .ok chunk =>
        if chunk.isEmpty then
          (.error (.internal "Unexpected end of stream while reading HTTP headers"), ⟨reads, raw⟩)
        else if (breakOn kHeaderDelimiter (raw ++ chunk)).isNone ∧ maxRequestSize < (raw ++ chunk).length then
          (.error (.validation "HTTP request exceeds max_request_size before headers complete"),
            ⟨reads, raw ++ chunk⟩)
        else readUntilHeadersComplete maxRequestSize reads (raw ++ chunk)

/-- `BodyReadLimits`. -/
structure BodyReadLimits where
  expectedBodySize : Nat
  bodyStart : Nat
  maxRequestSize : Nat

/-- `ReadRemainingBody`. -/
def readRemainingBody (limits : BodyReadLimits) : List (Result Bytes) → Bytes → Result Unit × HttpConnection
  | [], raw =>
    if raw.length - limits.bodyStart < limits.expectedBodySize then
      (.error (.internal "Unexpected end of stream while reading HTTP body"), ⟨[], raw⟩)
    else (.ok (), ⟨[], raw⟩)
  | read :: reads, raw =>
    if raw.length - limits.bodyStart < limits.expectedBodySize then
      match read with
      | .error e => (.error e, ⟨reads, raw⟩)
      | .ok chunk =>
        if chunk.isEmpty then
          (.error (.internal "Unexpected end of stream while reading HTTP body"), ⟨reads, raw⟩)
        else if limits.maxRequestSize < limits.bodyStart + limits.expectedBodySize then
          (.error (.validation "HTTP request exceeds max_request_size while reading body"),
            ⟨reads, raw ++ chunk⟩)
        else readRemainingBody limits reads (raw ++ chunk)
    else (.ok (), ⟨read :: reads, raw⟩)

/-- The end of `ReadRequest`: the body, and the bytes that belong to later requests. -/
def takeBody (limits : BodyReadLimits) (method target : Bytes) (headers : HttpHeaders) (remoteAddress : Bytes)
    (connection : HttpConnection) : Result HttpServerRequest × HttpConnection :=
  match readRemainingBody limits connection.reads connection.bufferedBytes with
  | (.error e, connection) => (.error e, connection)
  | (.ok _, connection) =>
    let rest := connection.bufferedBytes.drop limits.bodyStart
    (.ok { method, target, headers, body := rest.take limits.expectedBodySize, remoteAddress },
      { connection with bufferedBytes := rest.drop limits.expectedBodySize })

/-- `ReadRequest` once the header block is there. -/
def readParsed (maxRequestSize : Nat) (remoteAddress : Bytes) (connection : HttpConnection) :
    Result HttpServerRequest × HttpConnection :=
  let headerBlock := ((breakOn kHeaderDelimiter connection.bufferedBytes).map Prod.fst).getD []
  match parseRequestLine headerBlock with
  | .error e => (.error e, connection)
  | .ok (method, target) =>
    match parseHeaders headerBlock with
    | .error e => (.error e, connection)
    | .ok (headers, contentLength) =>
      let bodyStart := headerBlock.length + kHeaderDelimiter.length
      let expectedBodySize := contentLength.getD 0
      if maxRequestSize < bodyStart ∨ maxRequestSize - bodyStart < expectedBodySize then
        (.error (.validation "Content-Length exceeds max_request_size"), connection)
      else takeBody ⟨expectedBodySize, bodyStart, maxRequestSize⟩ method target headers remoteAddress connection

/-- `ReadRequest`. -/
def readRequest (options : HttpAdapterOptions) (remoteAddress : Bytes) (connection : HttpConnection) :
    Result HttpServerRequest × HttpConnection :=
  if options.readBufferSize = 0 then
    (.error (.internal "HTTP adapter read_buffer_size must be greater than zero"), connection)
  else
    match readUntilHeadersComplete options.maxRequestSize.toNat connection.reads connection.bufferedBytes with
    | (.error e, connection) => (.error e, connection)
    | (.ok _, connection) => readParsed options.maxRequestSize.toNat remoteAddress connection

/-- Successive `ReadRequest` calls on one connection. -/
def readRequests (options : HttpAdapterOptions) (remoteAddress : Bytes) :
    Nat → HttpConnection → List (Result HttpServerRequest) × HttpConnection
  | 0, connection => ([], connection)
  | count + 1, connection =>
    let (request, connection) := readRequest options remoteAddress connection
    let (requests, connection) := readRequests options remoteAddress count connection
    (request :: requests, connection)

end HttpAdapter

end A2A.Server.Transport
