/-
# Texts that consist of whole events.
-/
import A2A.Client.SseParser

namespace A2A.Client

open A2A.Foundation A2A.Core

theorem linesOf_cons {line : Bytes} (h : 10 ∉ line) (more : Bytes) :
    linesOf (line ++ 10 :: more) = removeCarriageReturn line :: linesOf more := by
  have hsplit : ∀ more, splitOn [10] (line ++ 10 :: more) = line :: splitOn [10] more := fun more => splitOn_append h more
  have hrest : ∀ rest, splitOn [10] (line ++ [10] ++ rest) = [line] ++ splitOn [10] ([] ++ rest) := by
    intro rest
    rw [List.append_assoc]
    exact hsplit rest
  have hlines := linesOf_append hrest more
  rw [List.append_assoc] at hlines
  exact hlines

theorem removeCarriageReturn_of_notMem {line : Bytes} (h : 13 ∉ line) : removeCarriageReturn line = line := by
  apply if_neg
  intro hlast
  exact h (List.mem_of_getLast? hlast)

/-- A text that is made of whole events. -/
def Reads (text : Bytes) (events : List SseEvent) : Prop :=
  ∃ lines, (∀ more, linesOf (text ++ more) = lines ++ linesOf more) ∧
    ∀ before, consumeLines collect lines {} before = (.ok (), {}, before ++ events)

namespace Reads

variable {text json : Bytes} {events : List SseEvent}

theorem nil : Reads [] [] := ⟨[], fun _ => rfl, fun before => by rw [List.append_nil]; rfl⟩

theorem append {text' : Bytes} {events' : List SseEvent} (h : Reads text events) (h' : Reads text' events') :
    Reads (text ++ text') (events ++ events') := by
  obtain ⟨lines, hlines, hevents⟩ := h
  obtain ⟨lines', hlines', hevents'⟩ := h'
  refine ⟨lines ++ lines', ?_, ?_⟩
  · intro more
    rw [List.append_assoc, hlines, hlines', List.append_assoc]
  · intro before
    rw [consumeLines_append, hevents]
    show consumeLines collect lines' {} (before ++ events) = _
    rw [hevents', List.append_assoc]

theorem read (h : Reads text events) : A2A.Client.read collect {} text [] = (.ok (), events) := by
  obtain ⟨lines, hlines, hevents⟩ := h
  have htext : linesOf text = lines := by
    have hend := hlines []
    rw [List.append_nil] at hend
    rw [hend]
    exact List.append_nil lines
  rw [A2A.Client.read, htext, hevents]
  rfl

theorem parse (h : Reads text events) {chunks : List Bytes} (hchunks : chunks.flatten = text) :
    SseParser.parse collect chunks {} [] = (.ok (), events) := by
  rw [parse_eq_read_of_notMem chunks List.not_mem_nil, hchunks]
  exact h.read

/-! ## Frames -/

theorem consumeLines_data (json name : Bytes) (before : List SseEvent) :
    consumeLines collect [bytes "data: " ++ json, []] ⟨name, []⟩ before =
      (.ok (), {}, before ++ [⟨name, json⟩]) := by
  have hdata : consumeLine collect (bytes "data: " ++ json) ⟨name, []⟩ before =
      (.ok (), ⟨name, json ++ [10]⟩, before) := consumeLine_data ⟨name, []⟩ before (32 :: json)
  simp only [consumeLines, hdata, consumeLine_blank]
  rfl

theorem linesOf_data (hlf : 10 ∉ json) (hcr : 13 ∉ json) (more : Bytes) :
    linesOf (bytes "data: " ++ json ++ 10 :: ([] ++ 10 :: more)) = (bytes "data: " ++ json) :: [] :: linesOf more := by
  have hline : 10 ∉ bytes "data: " ++ json := by
    rw [List.mem_append, not_or]
    exact ⟨by decide, hlf⟩
  have hplain : 13 ∉ bytes "data: " ++ json := by
    rw [List.mem_append, not_or]
    exact ⟨by decide, hcr⟩
  rw [linesOf_cons hline, linesOf_cons List.not_mem_nil, removeCarriageReturn_of_notMem hplain]
  rfl

theorem data (hlf : 10 ∉ json) (hcr : 13 ∉ json) : Reads (bytes "data: " ++ json ++ bytes "\n\n") [⟨[], json⟩] := by
  refine ⟨[bytes "data: " ++ json, []], ?_, consumeLines_data json []⟩
  intro more
  rw [List.append_assoc (bytes "data: " ++ json)]
  exact linesOf_data hlf hcr more

theorem error (hlf : 10 ∉ json) (hcr : 13 ∉ json) :
    Reads (bytes "event: error\ndata: " ++ json ++ bytes "\n\n") [⟨bytes "error", json⟩] := by
  refine ⟨[bytes "event: error", bytes "data: " ++ json, []], ?_, ?_⟩
  · intro more
    have htext : bytes "event: error\ndata: " ++ json ++ bytes "\n\n" ++ more =
        bytes "event: error" ++ 10 :: (bytes "data: " ++ json ++ 10 :: ([] ++ 10 :: more)) := by
      rw [List.append_assoc (bytes "event: error\ndata: " ++ json)]
      rfl
    rw [htext, linesOf_cons (by decide), linesOf_data hlf hcr]
    rfl
  · intro before
    have hname : consumeLine collect (bytes "event: error") {} before = (.ok (), ⟨bytes "error", []⟩, before) := rfl
    rw [consumeLines, hname]
    exact consumeLines_data json (bytes "error") before

theorem heartbeat : Reads (bytes ": keep-alive\n\n") [] := by
  refine ⟨[bytes ": keep-alive", []], ?_, ?_⟩
  · intro more
    have htext : bytes ": keep-alive\n\n" ++ more = bytes ": keep-alive" ++ 10 :: ([] ++ 10 :: more) := rfl
    rw [htext, linesOf_cons (by decide), linesOf_cons List.not_mem_nil]
    rfl
  · intro before
    rw [List.append_nil]
    rfl

end Reads

end A2A.Client
