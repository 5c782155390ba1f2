/-
# Writing HTTP/1.1 responses (`a2a/server/http_adapter.h`).
-/
import A2A.Foundation.Hexadecimal
import A2A.Foundation.WriteProgram
import A2A.Server.Transport.HttpAdapter

namespace A2A.Server.Transport

open A2A.Foundation A2A.Core

/-! ## Constants -/

def kHeaderNameValueSeparator : Bytes := ": "
def kContentLengthHeaderName : Bytes := "Content-Length"
def kConnectionHeaderName : Bytes := "Connection"
def kConnectionCloseHeaderValue : Bytes := "close"
def kTransferEncodingHeaderName : Bytes := "Transfer-Encoding"
def kTransferEncodingChunked : Bytes := "chunked"
def kFinalChunk : Bytes := "0\r\n\r\n"

/-! ## Responses -/

/-- What `stream_writer` does with the transport it is given. -/
abbrev StreamWriter := WriteProgram Error (Result Unit)

/-- `HttpServerResponse`. -/
structure HttpServerResponse where
  statusCode : Int := 500
  headers : HttpHeaders := .empty
  body : Bytes := []
  streamWriter : Option StreamWriter := none

/-- `HttpAdapter::ReasonPhrase`. -/
def reasonPhrase (statusCode : Int) : Bytes :=
  match statusCode with
  | 200 => "OK"
  | 201 => "Created"
  | 202 => "Accepted"
  | 204 => "No Content"
  | 400 => "Bad Request"
  | 401 => "Unauthorized"
  | 403 => "Forbidden"
  | 404 => "Not Found"
  | 405 => "Method Not Allowed"
  | 409 => "Conflict"
  | 413 => "Payload Too Large"
  | 415 => "Unsupported Media Type"
  | 422 => "Unprocessable Entity"
  | 429 => "Too Many Requests"
  | 500 => "Internal Server Error"
  | 501 => "Not Implemented"
  | 502 => "Bad Gateway"
  | 503 => "Service Unavailable"
  | _ => "Unknown"

/-! ## Headers -/

/-- `HeaderContainsToken`. -/
def headerContainsToken (headers : HttpHeaders) (headerName expectedToken : Bytes) : Bool :=
  headers.rows.any fun header => equalsAsciiCaseInsensitive header.1 headerName &&
    (splitOn (bytes ",") header.2).any fun part => equalsAsciiCaseInsensitive (trimAsciiWhitespace part) expectedToken

/-- `ValidateResponseContentLength`. -/
def validateResponseContentLength (bodySize : Nat) (value : Bytes) (isStreaming : Bool) : Result Unit :=
  if isStreaming then .error (.validation "Streaming responses cannot set Content-Length")
  else
    match parseContentLength value with
    | .error _ => .error (.validation "Response Content-Length header is invalid")
    | .ok parsedLength =>
      if parsedLength ≠ bodySize then .error (.validation "Response Content-Length header does not match body size")
      else .ok ()

def headerLine (name value : Bytes) : Bytes := name ++ kHeaderNameValueSeparator ++ value ++ kLineTerminator

def headerLines (headers : List (Bytes × Bytes)) : Bytes :=
  (headers.map fun header => headerLine header.1 header.2).flatten

/-- The options that `AppendResponseHeaders` is called with. -/
structure HeaderOptions where
  bodySize : Nat
  isStreaming : Bool
  mustCloseConnection : Bool
  responseRequestsClose : Bool

/-- `AppendResponseHeaders`: the lines, and whether one is `Content-Length`. -/
def appendResponseHeaders (options : HeaderOptions) : List (Bytes × Bytes) → Bool → Bytes → Result (Bool × Bytes)
  | [], hasContentLength, payload => .ok (hasContentLength, payload)
  | (name, value) :: headers, hasContentLength, payload =>
    if equalsAsciiCaseInsensitive name kTransferEncodingHeader then
      .error (.validation "Response Transfer-Encoding is owned by the HTTP adapter")
    else
      let isContentLength := equalsAsciiCaseInsensitive name kContentLengthHeader
      match if isContentLength then validateResponseContentLength options.bodySize value options.isStreaming
        else .ok () with
      | .error e => .error e
      | .ok _ =>
        if equalsAsciiCaseInsensitive name kConnectionHeader && options.mustCloseConnection &&
            !options.responseRequestsClose then
          appendResponseHeaders options headers (hasContentLength || isContentLength) payload
        else
          appendResponseHeaders options headers (hasContentLength || isContentLength)
            (payload ++ headerLine name value)

namespace HttpServerResponse

/-- `response_requests_close`. -/
def requestsClose (response : HttpServerResponse) : Bool :=
  headerContainsToken response.headers kConnectionHeader kConnectionCloseHeaderValue

/-- `must_close_connection`. -/
def mustClose (response : HttpServerResponse) (closeConnection : Bool) : Bool :=
  closeConnection || response.requestsClose

def statusLine (response : HttpServerResponse) : Bytes :=
  kHttpVersion11 ++ 32 :: (toDecimal response.statusCode ++ 32 :: reasonPhrase response.statusCode)

def ownHeaders (response : HttpServerResponse) (closeConnection hasContentLength : Bool) : List (Bytes × Bytes) :=
  (if !hasContentLength && !response.streamWriter.isSome then
      [(kContentLengthHeaderName, decimal response.body.length)] else []) ++
    (if response.streamWriter.isSome && !response.mustClose closeConnection then
      [(kTransferEncodingHeaderName, kTransferEncodingChunked)] else []) ++
    (if response.mustClose closeConnection && !response.requestsClose then
      [(kConnectionHeaderName, kConnectionCloseHeaderValue)] else [])

/-- The options for `AppendResponseHeaders`. -/
def headerOptions (response : HttpServerResponse) (closeConnection : Bool) : HeaderOptions :=
  ⟨response.body.length, response.streamWriter.isSome, response.mustClose closeConnection, response.requestsClose⟩

def head (response : HttpServerResponse) (closeConnection : Bool) : Result Bytes :=
  match appendResponseHeaders (response.headerOptions closeConnection) response.headers.rows false
      (response.statusLine ++ kLineTerminator) with
  | .error e => .error e
  | .ok (hasContentLength, payload) =>
    .ok (payload ++ headerLines (response.ownHeaders closeConnection hasContentLength) ++ kLineTerminator)

end HttpServerResponse

/-! ## Writing -/

/-- `HttpByteTransport::Write`, of a transport with states in `σ`. -/
abbrev HttpByteTransport (σ : Type) := σ → Bytes → Result Nat × σ

/-- `WriteAll`. -/
def writeAll (payload : Bytes) : StreamWriter :=
  WriteProgram.writeFully (.internal "Transport write returned zero bytes") payload

def encodeChunk (payload : Bytes) : Bytes :=
  hexadecimal payload.length ++ kLineTerminator ++ payload ++ kLineTerminator

namespace ChunkedByteTransport

variable {σ : Type}

/-- `ChunkedByteTransport::Write`. -/
def write (transport : HttpByteTransport σ) : HttpByteTransport σ := fun state payload =>
  if payload.isEmpty then (.ok 0, state)
  else
    let chunkWritten := (writeAll (encodeChunk payload)).run transport state
    match chunkWritten.value with
    | .error e => (.error e, chunkWritten.state)
    | .ok _ => (.ok payload.length, chunkWritten.state)

end ChunkedByteTransport

namespace HttpAdapter

variable {σ : Type}

/-- The end of `WriteResponse` for a stream: the writer runs. -/
def writeStream (transport : HttpByteTransport σ) (writer : StreamWriter) (mustClose : Bool) (state : σ) :
    WriteProgram.Execution Error σ (Result Unit) :=
  if mustClose then writer.run transport state
  else
    let streamed := writer.run (ChunkedByteTransport.write transport) state
    match streamed.value with
    | .error e => ⟨.error e, streamed.calls, streamed.state⟩
    | .ok _ =>
      let finished := (writeAll kFinalChunk).run transport streamed.state
      ⟨finished.value, streamed.calls, finished.state⟩

/-- `WriteResponse`, with the calls of the stream writer. -/
def writeResponse (transport : HttpByteTransport σ) (response : HttpServerResponse) (closeConnection : Bool)
    (state : σ) : WriteProgram.Execution Error σ (Result Unit) :=
  match response.head closeConnection with
  | .error e => ⟨.error e, [], state⟩
  | .ok head =>
    match response.streamWriter with
    | none =>
      let responseWritten := (writeAll (head ++ response.body)).run transport state
      ⟨responseWritten.value, [], responseWritten.state⟩
    | some writer =>
      let headersWritten := (writeAll head).run transport state
      match headersWritten.value with
      | .error e => ⟨.error e, [], headersWritten.state⟩
      | .ok _ => writeStream transport writer (response.mustClose closeConnection) headersWritten.state

end HttpAdapter

end A2A.Server.Transport
