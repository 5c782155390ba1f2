/-
# What `ReadRequest` accepts does not depend on how it arrives.
-/
import A2A.Server.Transport.HttpAdapter

namespace A2A.Server.Transport

open A2A.Foundation A2A.Core List Option

/-! ## Streams -/

/-- The bytes that reads deliver before one fails or reports the end. -/
def received : List (Result Bytes) → Bytes
  | [] | .error _ :: _ => []
  | .ok chunk :: reads => if chunk.isEmpty then [] else chunk ++ received reads

@[simp] theorem received_nil : received [] = [] := rfl

@[simp] theorem received_error (e : Error) (reads : List (Result Bytes)) : received (.error e :: reads) = [] := rfl

theorem received_of_isEmpty {chunk : Bytes} (h : chunk.isEmpty) (reads : List (Result Bytes)) :
    received (.ok chunk :: reads) = [] := if_pos h

theorem received_of_not_isEmpty {chunk : Bytes} (h : ¬ chunk.isEmpty) (reads : List (Result Bytes)) :
    received (.ok chunk :: reads) = chunk ++ received reads := if_neg h

def HttpConnection.stream (connection : HttpConnection) : Bytes :=
  connection.bufferedBytes ++ received connection.reads

/-- Read one request off a stream: the request and the rest of the stream. -/
def readStream (maxRequestSize : Nat) (remoteAddress stream : Bytes) : Option (HttpServerRequest × Bytes) :=
  match breakOn kHeaderDelimiter stream with
  | none => none
  | some (headerBlock, rest) =>
    match parseRequestLine headerBlock, parseHeaders headerBlock with
    | .ok (method, target), .ok (headers, contentLength) =>
      let expectedBodySize := contentLength.getD 0
      if headerBlock.length + kHeaderDelimiter.length + expectedBodySize ≤ maxRequestSize ∧
          expectedBodySize ≤ rest.length then
        some ({ method, target, headers, body := rest.take expectedBodySize, remoteAddress },
          rest.drop expectedBodySize)
      else none
    | _, _ => none

namespace HttpAdapter

variable {connection : HttpConnection} {options : HttpAdapterOptions} {remoteAddress : Bytes}
    {request : HttpServerRequest}

/-- The header loop stops with the delimiter, or fails because it is missing or too far away. -/
theorem readUntilHeadersComplete_cases (maxRequestSize : Nat) (reads : List (Result Bytes)) (raw : Bytes) :
    (∃ e connection, readUntilHeadersComplete maxRequestSize reads raw = (.error e, connection) ∧
      ∀ headerBlock rest, breakOn kHeaderDelimiter (raw ++ received reads) = some (headerBlock, rest) →
        maxRequestSize < headerBlock.length + kHeaderDelimiter.length) ∨
    ∃ connection, readUntilHeadersComplete maxRequestSize reads raw = (.ok (), connection) ∧
      connection.stream = raw ++ received reads ∧
      (breakOn kHeaderDelimiter connection.bufferedBytes).isSome := by
  induction reads generalizing raw with
  | nil =>
    unfold readUntilHeadersComplete
    split_ifs with hfound
    · exact .inr ⟨_, rfl, rfl, hfound⟩
    · refine .inl ⟨_, _, rfl, ?_⟩
      intro headerBlock rest hstream
      rw [received_nil, append_nil] at hstream
      rw [hstream] at hfound
      exact absurd rfl hfound
  | cons read reads ih =>
    unfold readUntilHeadersComplete
    by_cases hfound : (breakOn kHeaderDelimiter raw).isSome
    · rw [if_pos hfound]
      exact .inr ⟨_, rfl, rfl, hfound⟩
    have hnone : breakOn kHeaderDelimiter raw = none := not_isSome_iff_eq_none.mp hfound
    rw [if_neg hfound]
    cases read with
    | error e =>
      refine .inl ⟨_, _, rfl, ?_⟩
      intro headerBlock rest hstream
      rw [received_error, append_nil, hnone] at hstream
      cases hstream
    | ok chunk =>
      by_cases hempty : chunk.isEmpty
      · dsimp only
        rw [if_pos hempty]
        refine .inl ⟨_, _, rfl, ?_⟩
        intro headerBlock rest hstream
        rw [received_of_isEmpty hempty, append_nil, hnone] at hstream
        cases hstream
      have hreceived : raw ++ received (.ok chunk :: reads) = (raw ++ chunk) ++ received reads := by
        rw [received_of_not_isEmpty hempty, append_assoc]
      dsimp only
      rw [if_neg hempty]
      split_ifs with hlarge
      · refine .inl ⟨_, _, rfl, ?_⟩
        intro headerBlock rest hstream
        rw [hreceived] at hstream
        have hlt := length_lt_of_breakOn_append (isNone_iff_eq_none.mp hlarge.1) hstream
        exact lt_trans hlarge.2 hlt
      · rw [hreceived]
        exact ih (raw ++ chunk)

/-- The body loop stops with the body exactly if the stream is long enough. -/
theorem readRemainingBody_cases {limits : BodyReadLimits}
    (hlimits : limits.bodyStart + limits.expectedBodySize ≤ limits.maxRequestSize) (reads : List (Result Bytes))
    {raw : Bytes} (hstart : limits.bodyStart ≤ raw.length) :
    (∃ e connection, readRemainingBody limits reads raw = (.error e, connection) ∧
      (raw ++ received reads).length < limits.bodyStart + limits.expectedBodySize) ∨
    ∃ connection, readRemainingBody limits reads raw = (.ok (), connection) ∧
      connection.stream = raw ++ received reads ∧
      limits.bodyStart + limits.expectedBodySize ≤ connection.bufferedBytes.length := by
  induction reads generalizing raw with
  | nil =>
    unfold readRemainingBody
    split_ifs with hshort
    · refine .inl ⟨_, _, rfl, ?_⟩
      rw [received_nil, append_nil]
      omega
    · exact .inr ⟨_, rfl, rfl, by dsimp only; omega⟩
  | cons read reads ih =>
    unfold readRemainingBody
    by_cases hshort : raw.length - limits.bodyStart < limits.expectedBodySize
    · rw [if_pos hshort]
      cases read with
      | error e =>
        refine .inl ⟨_, _, rfl, ?_⟩
        rw [received_error, append_nil]
        omega
      | ok chunk =>
        by_cases hempty : chunk.isEmpty
        · dsimp only
          rw [if_pos hempty]
          refine .inl ⟨_, _, rfl, ?_⟩
          rw [received_of_isEmpty hempty, append_nil]
          omega
        · have hreceived : raw ++ received (.ok chunk :: reads) = (raw ++ chunk) ++ received reads := by
            rw [received_of_not_isEmpty hempty, append_assoc]
          dsimp only
          rw [if_neg hempty, if_neg (not_lt.mpr hlimits), hreceived]
          apply ih
          rw [length_append]
          omega
    · rw [if_neg hshort]
      exact .inr ⟨_, rfl, rfl, by dsimp only; omega⟩

/-- `takeBody` delivers the body behind the header block, if it is there. -/
theorem takeBody_cases (limits : BodyReadLimits)
    (hlimits : limits.bodyStart + limits.expectedBodySize ≤ limits.maxRequestSize) (method target : Bytes)
    (headers : HttpHeaders) (remoteAddress : Bytes) (hstart : limits.bodyStart ≤ connection.bufferedBytes.length) :
    (∃ e connection', takeBody limits method target headers remoteAddress connection = (.error e, connection') ∧
      connection.stream.length < limits.bodyStart + limits.expectedBodySize) ∨
    ∃ connection', takeBody limits method target headers remoteAddress connection =
        (.ok ⟨method, target, headers, (connection.stream.drop limits.bodyStart).take limits.expectedBodySize,
          remoteAddress⟩, connection') ∧
      connection'.stream = (connection.stream.drop limits.bodyStart).drop limits.expectedBodySize ∧
      limits.bodyStart + limits.expectedBodySize ≤ connection.stream.length := by
  unfold takeBody
  rcases readRemainingBody_cases hlimits connection.reads hstart with
    ⟨e, connection', hread, hshort⟩ | ⟨connection', hread, hstream, hlength⟩
  · rw [hread]
    exact .inl ⟨e, connection', rfl, hshort⟩
  · rw [hread]
    have hstream' : connection.stream = connection'.stream := hstream.symm
    have hbuffered : limits.bodyStart ≤ connection'.bufferedBytes.length := by omega
    have hrest : connection'.stream.drop limits.bodyStart =
        connection'.bufferedBytes.drop limits.bodyStart ++ received connection'.reads :=
      drop_append_of_le_length hbuffered
    have hbody : limits.expectedBodySize ≤ (connection'.bufferedBytes.drop limits.bodyStart).length := by
      rw [length_drop]
      omega
    refine .inr ⟨⟨connection'.reads,
      (connection'.bufferedBytes.drop limits.bodyStart).drop limits.expectedBodySize⟩, ?_, ?_, ?_⟩
    · dsimp only
      rw [hstream', hrest, take_append_of_le_length hbody]
    · rw [hstream', hrest, drop_append_of_le_length hbody]
      rfl
    · rw [hstream', HttpConnection.stream, length_append]
      omega

/-- The incremental reader against the reader of the whole stream. -/
def Agrees (outcome : Option (HttpServerRequest × Bytes)) (answer : Result HttpServerRequest × HttpConnection) :
    Prop :=
  match outcome with
  | some (request, rest) => ∃ connection, answer = (.ok request, connection) ∧ connection.stream = rest
  | none => ∃ e connection, answer = (.error e, connection)

/-- With a complete head in the buffer, the request depends on the stream alone. -/
theorem readParsed_agrees (maxRequestSize : Nat) (remoteAddress : Bytes)
    (hfound : (breakOn kHeaderDelimiter connection.bufferedBytes).isSome) :
    Agrees (readStream maxRequestSize remoteAddress connection.stream)
      (readParsed maxRequestSize remoteAddress connection) := by
  obtain ⟨⟨headerBlock, rest⟩, hsplit⟩ := isSome_iff_exists.mp hfound
  have hbuffered := eq_of_breakOn hsplit
  have hstream : breakOn kHeaderDelimiter connection.stream =
      some (headerBlock, rest ++ received connection.reads) := breakOn_append hsplit _
  have hwhole := eq_of_breakOn hstream
  have hstart : headerBlock.length + kHeaderDelimiter.length ≤ connection.bufferedBytes.length := by
    rw [hbuffered, length_append, length_append]
    omega
  have hdrop : connection.stream.drop (headerBlock.length + kHeaderDelimiter.length) =
      rest ++ received connection.reads := by
    rw [hwhole, ← length_append, drop_left]
  have hlength : connection.stream.length = headerBlock.length + kHeaderDelimiter.length +
      (rest ++ received connection.reads).length := by
    rw [hwhole, length_append, length_append]
  unfold readStream readParsed
  rw [hsplit, hstream]
  dsimp only [map_some, getD_some]
  cases parseRequestLine headerBlock with
  | error e => exact ⟨e, connection, rfl⟩
  | ok line =>
    cases parseHeaders headerBlock with
    | error e => exact ⟨e, connection, rfl⟩
    | ok parsed =>
      dsimp only
      by_cases hsize : headerBlock.length + kHeaderDelimiter.length + parsed.2.getD 0 ≤ maxRequestSize
      · rw [if_neg (by omega : ¬ (maxRequestSize < headerBlock.length + kHeaderDelimiter.length ∨
          maxRequestSize - (headerBlock.length + kHeaderDelimiter.length) < parsed.2.getD 0))]
        rcases takeBody_cases ⟨parsed.2.getD 0, _, maxRequestSize⟩ hsize line.1 line.2 parsed.1
            remoteAddress hstart with ⟨e, connection', hbody, hshort⟩ | ⟨connection', hbody, hrest, hlong⟩
        · dsimp only at hshort
          rw [if_neg (by omega)]
          exact ⟨e, connection', hbody⟩
        · dsimp only at hlong
          rw [if_pos (by omega)]
          rw [hdrop] at hbody hrest
          exact ⟨connection', hbody, hrest⟩
      · rw [if_neg fun h => hsize h.1, if_pos (by omega)]
        exact ⟨_, connection, rfl⟩

/-- The incremental reader accepts what `readStream` does, with the same rest. -/
theorem readRequest_agrees (hbuffer : options.readBufferSize ≠ 0) (remoteAddress : Bytes)
    (connection : HttpConnection) :
    Agrees (readStream options.maxRequestSize.toNat remoteAddress connection.stream)
      (readRequest options remoteAddress connection) := by
  unfold readRequest
  rw [if_neg hbuffer]
  rcases readUntilHeadersComplete_cases options.maxRequestSize.toNat connection.reads connection.bufferedBytes with
    ⟨e, connection', hread, hlarge⟩ | ⟨connection', hread, hstream, hfound⟩
  · rw [hread]
    have hnone : readStream options.maxRequestSize.toNat remoteAddress connection.stream = none := by
      unfold readStream
      cases hsplit : breakOn kHeaderDelimiter connection.stream with
      | none => rfl
      | some split =>
        have hlarge' := hlarge split.1 split.2 hsplit
        dsimp only
        split
        · exact if_neg (by omega)
        · rfl
    rw [hnone]
    exact ⟨e, connection', rfl⟩
  · rw [hread, show connection.stream = connection'.stream from hstream.symm]
    exact readParsed_agrees _ remoteAddress hfound

theorem ok_of_readStream (hbuffer : options.readBufferSize ≠ 0) {rest : Bytes}
    (h : readStream options.maxRequestSize.toNat remoteAddress connection.stream = some (request, rest)) :
    ∃ connection', readRequest options remoteAddress connection = (.ok request, connection') ∧
      connection'.stream = rest := by
  have hagrees := readRequest_agrees hbuffer remoteAddress connection
  rw [h] at hagrees
  exact hagrees

theorem readStream_of_ok {connection' : HttpConnection}
    (h : readRequest options remoteAddress connection = (.ok request, connection')) :
    readStream options.maxRequestSize.toNat remoteAddress connection.stream = some (request, connection'.stream) := by
  have hbuffer : options.readBufferSize ≠ 0 := by
    intro hzero
    rw [readRequest, if_pos hzero] at h
    cases (Prod.mk.inj h).1
  have hagrees := readRequest_agrees hbuffer remoteAddress connection
  rw [h] at hagrees
  cases hstream : readStream options.maxRequestSize.toNat remoteAddress connection.stream with
  | none =>
    rw [hstream] at hagrees
    obtain ⟨e, connection'', hEq⟩ := hagrees
    cases (Prod.mk.inj hEq).1
  | some outcome =>
    rw [hstream] at hagrees
    obtain ⟨connection'', hEq, hrest⟩ := hagrees
    obtain ⟨hrequest, rfl⟩ := Prod.mk.inj hEq
    rw [Except.ok.inj hrequest, hrest]

/-- Acceptance does not depend on how the stream is cut into reads. -/
theorem isOk_readRequest_congr (options : HttpAdapterOptions) (remoteAddress : Bytes)
    {other : HttpConnection} (h : connection.stream = other.stream) :
    (readRequest options remoteAddress connection).1.isOk = (readRequest options remoteAddress other).1.isOk := by
  by_cases hbuffer : options.readBufferSize = 0
  · rw [readRequest, readRequest, if_pos hbuffer, if_pos hbuffer]
  · have hagrees := readRequest_agrees hbuffer remoteAddress connection
    have hagrees' := readRequest_agrees hbuffer remoteAddress other
    rw [← h] at hagrees'
    cases hstream : readStream options.maxRequestSize.toNat remoteAddress connection.stream with
    | none =>
      rw [hstream] at hagrees hagrees'
      obtain ⟨e, _, hread⟩ := hagrees
      obtain ⟨e', _, hread'⟩ := hagrees'
      rw [hread, hread']
      rfl
    | some outcome =>
      rw [hstream] at hagrees hagrees'
      obtain ⟨_, hread, -⟩ := hagrees
      obtain ⟨_, hread', -⟩ := hagrees'
      rw [hread, hread']

end HttpAdapter

variable {maxRequestSize : Nat} {remoteAddress stream rest target : Bytes} {request : HttpServerRequest}

section

variable (h : readStream maxRequestSize remoteAddress stream = some (request, rest))

include h

theorem readStream_eq_some :
    ∃ headerBlock after headers contentLength, breakOn kHeaderDelimiter stream = some (headerBlock, after) ∧
      parseRequestLine headerBlock = .ok (request.method, request.target) ∧
      parseHeaders headerBlock = .ok (headers, contentLength) ∧
      headerBlock.length + kHeaderDelimiter.length + request.body.length ≤ maxRequestSize ∧
      after = request.body ++ rest := by
  unfold readStream at h
  split at h
  · cases h
  · next headerBlock after hsplit =>
      split at h
      · next method target headers contentLength hline hheaders =>
          dsimp only at h
          split_ifs at h with hsize
          cases h
          refine ⟨headerBlock, after, headers, contentLength, hsplit, hline, hheaders, ?_, ?_⟩
          · dsimp only
            rw [length_take]
            omega
          · exact (take_append_drop _ _).symm
      · cases h

theorem readStream_occupies :
    ∃ occupied, stream = occupied ++ rest ∧ occupied.length ≤ maxRequestSize := by
  obtain ⟨headerBlock, after, _, _, hsplit, -, -, hsize, rfl⟩ := readStream_eq_some h
  refine ⟨headerBlock ++ kHeaderDelimiter ++ request.body, ?_, ?_⟩
  · rw [eq_of_breakOn hsplit]
    simp only [append_assoc]
  · rw [length_append, length_append]
    exact hsize

end

/-! ## Request targets -/

def requestTargetToken (stream : Bytes) : Option Bytes :=
  (breakOn kLineTerminator stream).bind fun line => (words line.1)[1]?

theorem parseRequestLine_eq_ok {headerBlock method : Bytes} (h : parseRequestLine headerBlock = .ok (method, target)) :
    ∃ token, requestTargetToken headerBlock = some token ∧ target = normalizeRequestTarget token := by
  unfold parseRequestLine at h
  split at h
  · cases h
  · next line rest hline =>
      split at h
      · next method' token version more hwords =>
          split_ifs at h
          obtain ⟨-, rfl⟩ := Prod.mk.inj (Except.ok.inj h)
          refine ⟨token, ?_, rfl⟩
          rw [requestTargetToken, hline, bind_some, hwords]
          rfl
      · cases h

theorem requestTargetToken_append {text token : Bytes} (h : requestTargetToken text = some token) (more : Bytes) :
    requestTargetToken (text ++ more) = some token := by
  obtain ⟨split, hsplit, htoken⟩ := bind_eq_some_iff.mp h
  rw [requestTargetToken, breakOn_append hsplit more]
  exact htoken

theorem target_of_readStream (h : readStream maxRequestSize remoteAddress stream = some (request, rest)) :
    ∃ token, requestTargetToken stream = some token ∧ request.target = normalizeRequestTarget token := by
  obtain ⟨headerBlock, after, _, _, hsplit, hline, -⟩ := readStream_eq_some h
  obtain ⟨token, htoken, htarget⟩ := parseRequestLine_eq_ok hline
  refine ⟨token, ?_, htarget⟩
  rw [eq_of_breakOn hsplit, append_assoc]
  exact requestTargetToken_append htoken _

/-- A target is left alone exactly if no scheme separator occurs in it. -/
theorem normalizeRequestTarget_eq_self_iff (hne : target ≠ []) :
    normalizeRequestTarget target = target ↔ ¬ bytes "://" <:+: target := by
  unfold normalizeRequestTarget
  rw [if_neg (by simpa using hne), ← breakOn_eq_none_iff]
  cases hscheme : breakOn (bytes "://") target with
  | none => exact iff_of_true rfl rfl
  | some split =>
    refine iff_of_false ?_ (some_ne_none _)
    have hlength : target.length = split.1.length + 3 + split.2.length := by
      rw [eq_of_breakOn hscheme, length_append, length_append]
      rfl
    intro hEq
    have hEq' := congrArg List.length hEq
    cases hpath : breakOn (bytes "/") split.2 with
    | none =>
      simp only [hpath] at hEq'
      have hone : (bytes "/").length = 1 := rfl
      omega
    | some path =>
      have hauthority : split.2.length = path.1.length + 1 + path.2.length := by
        rw [eq_of_breakOn hpath, length_append, length_append]
        rfl
      simp only [hpath, length_append] at hEq'
      have hone : (bytes "/").length = 1 := rfl
      omega

/-- An origin-form target arrives unchanged exactly if it does not contain `://`. -/
theorem readRequest_keeps_target_iff {options : HttpAdapterOptions} {remoteAddress : Bytes}
    {connection connection' : HttpConnection} {request : HttpServerRequest}
    (h : HttpAdapter.readRequest options remoteAddress connection = (.ok request, connection')) {token : Bytes}
    (htoken : requestTargetToken connection.stream = some token) (horigin : token.head? = some 47) :
    request.target = token ↔ ¬ bytes "://" <:+: token := by
  obtain ⟨token', htoken', htarget⟩ := target_of_readStream (HttpAdapter.readStream_of_ok h)
  cases htoken.symm.trans htoken'
  have hne : token ≠ [] := by
    rintro rfl
    cases horigin
  rw [htarget]
  exact normalizeRequestTarget_eq_self_iff hne

theorem exists_of_isOk {answer : Result HttpServerRequest × HttpConnection} (h : answer.1.isOk) :
    ∃ request connection, answer = (.ok request, connection) := by
  obtain ⟨result, connection⟩ := answer
  cases result with
  | error e => nomatch h
  | ok request => exact ⟨request, connection, rfl⟩

theorem plain_target_is_kept :
    ∃ request connection', HttpAdapter.readRequest {} [] ⟨[.ok "GET /tasks HTTP/1.1\r\nHost: a\r\n\r\n"], []⟩ =
        (.ok request, connection') ∧ request.target = bytes "/tasks" := by
  have hok : (HttpAdapter.readRequest {} []
      ⟨[.ok "GET /tasks HTTP/1.1\r\nHost: a\r\n\r\n"], []⟩).1.isOk = true := by decide +kernel
  obtain ⟨request, connection', h⟩ := exists_of_isOk hok
  refine ⟨request, connection', h, ?_⟩
  apply (readRequest_keeps_target_iff h (by decide +kernel) (by decide +kernel)).mpr
  decide +kernel

/-- A query that carries a URL: everything up to the path of that URL is cut off. -/
theorem embedded_url_replaces_target :
    (HttpAdapter.readRequest {} []
      ⟨[.ok "GET /tasks?next=http://host/other HTTP/1.1\r\nHost: a\r\n\r\n"], []⟩).1.map HttpServerRequest.target =
        .ok "/other" ∧
      requestTargetToken "GET /tasks?next=http://host/other HTTP/1.1\r\nHost: a\r\n\r\n" =
        some "/tasks?next=http://host/other" := by
  decide +kernel

end A2A.Server.Transport
