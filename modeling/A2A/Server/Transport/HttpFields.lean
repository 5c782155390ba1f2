/-
# Header lines as they are written.
-/
import A2A.Server.Transport.HttpAdapter

namespace A2A.Server.Transport

open A2A.Foundation A2A.Core List

/-- A field of a request as it is sent. -/
structure HeaderField where
  name : Bytes
  text : Bytes
  name_ne : name ≠ []
  name_plain : ∀ b ∈ name, isSpace b = false ∧ b ≠ 58
  text_plain : ∀ b ∈ text, b ≠ 13 ∧ b ≠ 10

namespace HeaderField

def line (field : HeaderField) : Bytes := field.name ++ 58 :: field.text

def entry (field : HeaderField) : Bytes × Bytes := (field.name, trimAsciiWhitespace field.text)

def Named (field : HeaderField) (name : Bytes) : Prop := equalsAsciiCaseInsensitive field.name name = true

instance (field : HeaderField) (name : Bytes) : Decidable (field.Named name) :=
  inferInstanceAs (Decidable (equalsAsciiCaseInsensitive field.name name = true))

theorem name_noSpace (field : HeaderField) : ∀ b ∈ field.name, isSpace b = false :=
  fun b hb => (field.name_plain b hb).1

theorem notMem_line {field : HeaderField} : 13 ∉ field.line := by
  intro hmem
  rcases mem_append.mp hmem with hname | htext
  · exact absurd (field.name_noSpace 13 hname) (by decide)
  · rcases mem_cons.mp htext with hcolon | htext
    · exact absurd hcolon (by decide)
    · exact (field.text_plain 13 htext).1 rfl

theorem line_eq_cons (field : HeaderField) : ∃ b rest, field.line = b :: rest ∧ b ≠ 13 := by
  obtain ⟨b, name, hname⟩ := exists_cons_of_ne_nil field.name_ne
  refine ⟨b, name ++ 58 :: field.text, by rw [line, hname]; rfl, ?_⟩
  rintro rfl
  exact absurd (field.name_noSpace 13 (by rw [hname]; exact mem_cons_self ..)) (by decide)

end HeaderField

/-- The lines of the fields, each behind a line end. -/
def fieldLines (fields : List HeaderField) : Bytes := (fields.map fun field => kLineTerminator ++ field.line).flatten

/-- The head ends at the first blank line, which no field contains. -/
theorem breakOn_fieldLines (fields : List HeaderField) (rest : Bytes) :
    breakOn kHeaderDelimiter (fieldLines fields ++ (kHeaderDelimiter ++ rest)) = some (fieldLines fields, rest) := by
  induction fields with
  | nil => exact breakOn_self_append rest
  | cons field fields ih =>
    obtain ⟨b, line, hline, hb⟩ := field.line_eq_cons
    have htext : fieldLines (field :: fields) ++ (kHeaderDelimiter ++ rest) =
        13 :: 10 :: (field.line ++ (fieldLines fields ++ (kHeaderDelimiter ++ rest))) := by
      simp [fieldLines, kLineTerminator]
    have hfirst : ¬ kHeaderDelimiter <+:
        13 :: 10 :: (field.line ++ (fieldLines fields ++ (kHeaderDelimiter ++ rest))) := by
      rw [hline]
      intro hbegins
      obtain ⟨-, hbegins⟩ := cons_prefix_cons.mp hbegins
      obtain ⟨-, hbegins⟩ := cons_prefix_cons.mp hbegins
      exact hb (cons_prefix_cons.mp hbegins).1.symm
    have hsecond : ¬ kHeaderDelimiter <+:
        10 :: (field.line ++ (fieldLines fields ++ (kHeaderDelimiter ++ rest))) := by
      intro hbegins
      exact absurd (cons_prefix_cons.mp hbegins).1 (by decide)
    have hskip : breakOn kHeaderDelimiter (field.line ++ (fieldLines fields ++ (kHeaderDelimiter ++ rest))) =
        (breakOn kHeaderDelimiter (fieldLines fields ++ (kHeaderDelimiter ++ rest))).map fun split =>
          (field.line ++ split.1, split.2) := breakOn_append_of_notMem field.notMem_line _
    rw [htext, breakOn_cons_of_not_begins hfirst, breakOn_cons_of_not_begins hsecond, hskip, ih]
    simp [fieldLines, kLineTerminator]

theorem breakOn_head {start : Bytes} (hstart : 13 ∉ start) (fields : List HeaderField) (rest : Bytes) :
    breakOn kHeaderDelimiter (start ++ fieldLines fields ++ (kHeaderDelimiter ++ rest)) =
      some (start ++ fieldLines fields, rest) := by
  have hskip : breakOn kHeaderDelimiter (start ++ (fieldLines fields ++ (kHeaderDelimiter ++ rest))) =
      (breakOn kHeaderDelimiter (fieldLines fields ++ (kHeaderDelimiter ++ rest))).map fun split =>
        (start ++ split.1, split.2) := breakOn_append_of_notMem hstart _
  rw [append_assoc, hskip, breakOn_fieldLines]
  rfl

theorem splitOn_head {start : Bytes} (hstart : 13 ∉ start) (fields : List HeaderField) :
    splitOn kLineTerminator (start ++ fieldLines fields) = start :: fields.map HeaderField.line := by
  induction fields generalizing start with
  | nil =>
    have htext : start ++ fieldLines [] = start := append_nil _
    rw [htext]
    exact splitOn_of_notMem hstart
  | cons field fields ih =>
    have htext : start ++ fieldLines (field :: fields) =
        start ++ (kLineTerminator ++ (field.line ++ fieldLines fields)) := by
      simp [fieldLines]
    rw [htext, map_cons, ← ih field.notMem_line]
    exact splitOn_append hstart _

end A2A.Server.Transport
