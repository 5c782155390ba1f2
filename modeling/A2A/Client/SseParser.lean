/-
# The incremental reader of server-sent events (`a2a/client/sse_parser.h`).
-/
import A2A.Core.Error
import A2A.Foundation.Search

namespace A2A.Client

open A2A.Foundation A2A.Core

/-- `SseEvent`. -/
structure SseEvent where
  event : Bytes
  data : Bytes
  deriving DecidableEq

/-- The event that is being put together: `current_event_` and `current_data_`. -/
structure SseFrame where
  currentEvent : Bytes := []
  currentData : Bytes := []

/-- `SseParser`. -/
structure SseParser where
  lineBuffer : Bytes := []
  frame : SseFrame := {}

/-- `EventCallback`, with what it changes. -/
abbrev EventCallback (σ : Type) := σ → SseEvent → Result Unit × σ

/-- The callback that never fails and keeps all events. -/
def collect : EventCallback (List SseEvent) := fun events event => (.ok (), events ++ [event])

/-- `TrimSingleLeadingSpace`. -/
def trimSingleLeadingSpace : Bytes → Bytes
  | 32 :: value => value
  | value => value

/-- `line.remove_suffix(1)` for a line that ends in a carriage return. -/
def removeCarriageReturn (line : Bytes) : Bytes := if line.getLast? = some 13 then line.dropLast else line

namespace SseFrame

/-- An event has been begun and not been handed over. -/
def isOpen (frame : SseFrame) : Bool := !frame.currentData.isEmpty || !frame.currentEvent.isEmpty

/-- What `Finish` says at the end of the stream. -/
def close (frame : SseFrame) : Result Unit :=
  if frame.isOpen then
      .error ((Error.serialization "SSE stream ended with unterminated event frame").withTransport "http")
  else .ok ()

end SseFrame

section Lines

variable {σ : Type} (onEvent : EventCallback σ)

/-- `SseParser::DispatchEvent`. -/
def dispatchEvent (frame : SseFrame) (state : σ) : Result Unit × SseFrame × σ :=
  if frame.currentData.isEmpty && frame.currentEvent.isEmpty then (.ok (), frame, state)
  else
    let data := if frame.currentData.getLast? = some 10 then frame.currentData.dropLast else frame.currentData
    let (answer, state) := onEvent state ⟨frame.currentEvent, data⟩
    (answer, {}, state)

/-- `SseParser::ConsumeLine`. -/
def consumeLine (line : Bytes) (frame : SseFrame) (state : σ) : Result Unit × SseFrame × σ :=
  if line.isEmpty then dispatchEvent onEvent frame state
  else if line.head? = some 58 then (.ok (), frame, state)
  else
    match breakOn (bytes ":") line with
    | none =>
      (.error ((Error.serialization "Malformed SSE line: missing ':' separator").withTransport "http"), frame, state)
    | some (field, rest) =>
      let value := trimSingleLeadingSpace rest
      if field = bytes "event" then (.ok (), { frame with currentEvent := value }, state)
      else if field = bytes "data" then
        (.ok (), { frame with currentData := frame.currentData ++ value ++ [10] }, state)
      else if field = bytes "id" ∨ field = bytes "retry" then (.ok (), frame, state)
      else
        (.error ((Error.serialization
          (bytes "Malformed SSE line: unsupported field '" ++ field ++ bytes "'")).withTransport "http"), frame, state)

/-- The lines of a buffer, until one fails. -/
def consumeLines : List Bytes → SseFrame → σ → Result Unit × SseFrame × σ
  | [], frame, state => (.ok (), frame, state)
  | line :: lines, frame, state =>
    match consumeLine onEvent line frame state with
    | (.error e, frame, state) => (.error e, frame, state)
    | (.ok _, frame, state) => consumeLines lines frame state

namespace SseParser

/-- `SseParser::Feed`. The buffer is only cut once all its lines are consumed. -/
def feed (parser : SseParser) (chunk : Bytes) (state : σ) : Result Unit × SseParser × σ :=
  let buffer := parser.lineBuffer ++ chunk
  let parts := splitOn [10] buffer
  match consumeLines onEvent (parts.dropLast.map removeCarriageReturn) parser.frame state with
  | (.error e, frame, state) => (.error e, ⟨buffer, frame⟩, state)
  | (.ok _, frame, state) => (.ok (), ⟨parts.getLastD [], frame⟩, state)

/-- `SseParser::Finish`. -/
def finish (parser : SseParser) (state : σ) : Result Unit × SseParser × σ :=
  match if parser.lineBuffer.isEmpty then (.ok (), parser.frame, state)
    else consumeLine onEvent parser.lineBuffer parser.frame state with
  | (.error e, frame, state) => (.error e, ⟨parser.lineBuffer, frame⟩, state)
  | (.ok _, frame, state) => (frame.close, ⟨[], frame⟩, state)

/-- The chunks of a response, and then its end. -/
def parse : List Bytes → SseParser → σ → Result Unit × σ
  | [], parser, state =>
    let (answer, _, state) := parser.finish onEvent state
    (answer, state)
  | chunk :: chunks, parser, state =>
    match parser.feed onEvent chunk state with
    | (.error e, _, state) => (.error e, state)
    | (.ok _, parser, state) => parse chunks parser state

end SseParser

/-! ## Kinds of lines -/

section Kinds

variable {σ : Type} {onEvent : EventCallback σ} (frame : SseFrame) (state : σ) (text : Bytes)

/-- A comment changes nothing. -/
theorem consumeLine_comment : consumeLine onEvent (58 :: text) frame state = (.ok (), frame, state) := rfl

/-- The last name of an event counts. -/
theorem consumeLine_event : consumeLine onEvent (bytes "event:" ++ text) frame state =
    (.ok (), { frame with currentEvent := trimSingleLeadingSpace text }, state) := rfl

/-- The data of several lines are put together, each with a line feed. -/
theorem consumeLine_data : consumeLine onEvent (bytes "data:" ++ text) frame state =
    (.ok (), { frame with currentData := frame.currentData ++ trimSingleLeadingSpace text ++ [10] }, state) :=
  rfl

theorem consumeLine_ignored : consumeLine onEvent (bytes "id:" ++ text) frame state = (.ok (), frame, state) ∧
    consumeLine onEvent (bytes "retry:" ++ text) frame state = (.ok (), frame, state) := ⟨rfl, rfl⟩

/-- Any other field ends the stream. -/
theorem consumeLine_unsupported {field : Bytes} (hfield : field ≠ []) (hcolon : 58 ∉ field)
    (h : field ∉ [bytes "event", bytes "data", bytes "id", bytes "retry"]) :
    consumeLine onEvent (field ++ 58 :: text) frame state =
      (.error ((Error.serialization (bytes "Malformed SSE line: unsupported field '" ++ field ++
        bytes "'")).withTransport "http"), frame, state) := by
  have hline : (field ++ 58 :: text).isEmpty = false := by simp
  have hhead : (field ++ 58 :: text).head? ≠ some 58 := by
    rw [List.head?_append_of_ne_nil field hfield]
    exact fun hhead => hcolon (List.mem_of_mem_head? hhead)
  have hbreak : breakOn (bytes ":") (field ++ 58 :: text) = some (field, text) :=
    breakOn_of_notMem hcolon text
  simp only [List.mem_cons, List.not_mem_nil, or_false, not_or] at h
  simp only [consumeLine, hline, hhead, hbreak, h, or_self, Bool.false_eq_true, if_false]

/-- A line without a colon does, too. -/
theorem consumeLine_malformed {line : Bytes} (hline : line ≠ []) (hcolon : 58 ∉ line) :
    consumeLine onEvent line frame state =
      (.error ((Error.serialization "Malformed SSE line: missing ':' separator").withTransport "http"), frame,
        state) := by
  have hhead : line.head? ≠ some 58 := fun hhead => hcolon (List.mem_of_mem_head? hhead)
  have hbreak : breakOn (bytes ":") line = none := breakOn_eq_none_of_notMem hcolon
  simp [consumeLine, hline, hhead, hbreak]

/-- A blank line hands over the event, without the last line feed of its data. -/
theorem consumeLine_blank (name : Bytes) : consumeLine onEvent [] ⟨name, text ++ [10]⟩ state =
    ((onEvent state ⟨name, text⟩).1, {}, (onEvent state ⟨name, text⟩).2) := by
  simp [consumeLine, dispatchEvent]

end Kinds

/-! ## The reference reader -/

/-- The lines of a text: terminated ones lose one carriage return, the last one is taken as it is. -/
def linesOf (text : Bytes) : List Bytes :=
  let parts := splitOn [10] text
  let last := parts.getLastD []
  parts.dropLast.map removeCarriageReturn ++ if last.isEmpty then [] else [last]

/-- Read a text as a whole, with an event that may have been begun before it. -/
def read (frame : SseFrame) (text : Bytes) (state : σ) : Result Unit × σ :=
  match consumeLines onEvent (linesOf text) frame state with
  | (.error e, _, state) => (.error e, state)
  | (.ok _, frame, state) => (frame.close, state)

end Lines

/-! ## Chunks do not matter -/

section Chunks

variable {σ : Type} {onEvent : EventCallback σ}

variable {parser : SseParser}

theorem consumeLines_append (lines more : List Bytes) (frame : SseFrame) (state : σ) :
    consumeLines onEvent (lines ++ more) frame state =
      match consumeLines onEvent lines frame state with
      | (.error e, frame, state) => (.error e, frame, state)
      | (.ok _, frame, state) => consumeLines onEvent more frame state := by
  induction lines generalizing frame state with
  | nil => rfl
  | cons line lines ih =>
    rw [List.cons_append, consumeLines, consumeLines]
    obtain ⟨answer, after, state'⟩ := consumeLine onEvent line frame state
    cases answer with
    | error e => rfl
    | ok done => exact ih after state'

/-- The lines of a longer text: the complete ones, then those of the open line and what is appended. -/
theorem linesOf_append {text : Bytes} {init : List Bytes} {last : Bytes}
    (hmore : ∀ more, splitOn [10] (text ++ more) = init ++ splitOn [10] (last ++ more)) (more : Bytes) :
    linesOf (text ++ more) = init.map removeCarriageReturn ++ linesOf (last ++ more) := by
  obtain ⟨parts, part, hparts, -⟩ := exists_splitOn_append 10 [] (last ++ more)
  unfold linesOf
  dsimp only
  rw [hmore, hparts, ← List.append_assoc, List.dropLast_concat, List.dropLast_concat, List.getLastD_concat,
    List.getLastD_concat, List.map_append, List.append_assoc]

/-- One chunk: `Feed`, and then the reader on the line that is kept now and the rest. -/
theorem read_feed (parser : SseParser) (chunk more : Bytes) (state : σ) :
    read onEvent parser.frame (parser.lineBuffer ++ (chunk ++ more)) state =
      match parser.feed onEvent chunk state with
      | (.error e, _, state) => (.error e, state)
      | (.ok _, parser, state) => read onEvent parser.frame (parser.lineBuffer ++ more) state := by
  obtain ⟨init, last, hparts, hmore⟩ := exists_splitOn_append 10 [] (parser.lineBuffer ++ chunk)
  rw [← List.append_assoc, read, linesOf_append hmore, consumeLines_append]
  unfold SseParser.feed
  dsimp only
  rw [hparts, List.dropLast_concat, List.getLastD_concat]
  obtain ⟨answer, frame, state'⟩ := consumeLines onEvent (init.map removeCarriageReturn) parser.frame state
  cases answer with
  | error | ok => rfl

theorem notMem_lineBuffer_feed {after : SseParser} {chunk : Bytes} {state state' : σ}
    (h : parser.feed onEvent chunk state = (.ok (), after, state')) : 10 ∉ after.lineBuffer := by
  obtain ⟨init, last, hparts, -⟩ := exists_splitOn_append 10 [] (parser.lineBuffer ++ chunk)
  have hlast : last ∈ splitOn [10] (parser.lineBuffer ++ chunk) := by
    rw [hparts]
    exact List.mem_append_right _ (List.mem_singleton_self last)
  unfold SseParser.feed at h
  dsimp only at h
  rw [hparts, List.getLastD_concat] at h
  split at h
  · cases (Prod.mk.inj h).1
  · rw [← (Prod.mk.inj (Prod.mk.inj h).2).1]
    exact notMem_of_mem_splitOn_singleton hlast

/-- The end: the reader makes of a line that is not complete what `Finish` does. -/
theorem read_finish (h : 10 ∉ parser.lineBuffer) (state : σ) :
    read onEvent parser.frame parser.lineBuffer state =
      ((parser.finish onEvent state).1, (parser.finish onEvent state).2.2) := by
  have hparts : splitOn [10] parser.lineBuffer = [parser.lineBuffer] := splitOn_of_notMem h
  have hlines : linesOf parser.lineBuffer = if parser.lineBuffer.isEmpty then [] else [parser.lineBuffer] := by
    rw [linesOf, hparts]
    rfl
  unfold read SseParser.finish
  rw [hlines]
  by_cases hempty : parser.lineBuffer.isEmpty = true
  · rw [if_pos hempty, if_pos hempty]
    rfl
  · rw [if_neg hempty, if_neg hempty, consumeLines]
    obtain ⟨answer, frame, state'⟩ := consumeLine onEvent parser.lineBuffer parser.frame state
    cases answer with
    | error | ok => rfl

theorem parse_eq_read_of_notMem (chunks : List Bytes) (h : 10 ∉ parser.lineBuffer) (state : σ) :
    parser.parse onEvent chunks state = read onEvent parser.frame (parser.lineBuffer ++ chunks.flatten) state := by
  induction chunks generalizing parser state with
  | nil =>
    rw [List.flatten_nil, List.append_nil, read_finish h]
    rfl
  | cons chunk chunks ih =>
    rw [List.flatten_cons, read_feed, SseParser.parse]
    cases hfeed : parser.feed onEvent chunk state with
    | mk answer rest =>
      obtain ⟨after, state'⟩ := rest
      cases answer with
      | error e => rfl
      | ok done => exact ih (notMem_lineBuffer_feed hfeed) state'

/-- The parser is the reference reader, however the text is cut; so two ways to cut a text give the same events up to
the first failure, and the same answer. -/
theorem parse_eq_read {σ : Type} (onEvent : EventCallback σ) (state : σ) :
    (∀ chunks : List Bytes, SseParser.parse onEvent chunks {} state = read onEvent {} chunks.flatten state) ∧
      ∀ chunks chunks' : List Bytes, chunks.flatten = chunks'.flatten →
        SseParser.parse onEvent chunks {} state = SseParser.parse onEvent chunks' {} state := by
  have hread : ∀ chunks : List Bytes,
      SseParser.parse onEvent chunks {} state = read onEvent {} chunks.flatten state :=
    fun chunks => parse_eq_read_of_notMem chunks List.not_mem_nil state
  refine ⟨hread, ?_⟩
  intro chunks chunks' hsame
  rw [hread, hread, hsame]

/-- A carriage return and its line feed in two chunks. -/
theorem parse_cut_between_cr_and_lf :
    SseParser.parse collect ["data: x\r", "\n\r\n"] {} [] = SseParser.parse collect ["data: x\r\n\r\n"] {} [] :=
  (parse_eq_read collect []).2 _ _ (by decide)

example : SseParser.parse collect ["event: a\r", "\ndata:x\n", "", "data: y\n\n"] {} [] =
    (.ok (), [⟨"a", "x\ny"⟩]) := by decide +kernel

end Chunks

end A2A.Client
