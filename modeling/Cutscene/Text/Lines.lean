/-! The lines of a source text. A line ends at a line feed, one carriage return before it belongs
to the ending, and an ending at the very end of the text opens no further line. -/

namespace Cutscene.Text

/-- Splits at every line feed; the last piece is what follows the last one. -/
def splitLines : List Char → List (List Char)
  | [] => [[]]
  | c :: s =>
    if c = '\n' then [] :: splitLines s
    else match splitLines s with
      | [] => [[c]]
      | line :: rest => (c :: line) :: rest

/-- Takes the carriage return off a line that a line feed ended. -/
def dropReturn (line : List Char) : List Char :=
  if line.getLast? = some '\r' then line.dropLast else line

/-- The lines with their endings taken off, given the pieces between line feeds. -/
def endLines : List (List Char) → List (List Char)
  | [] => []
  | [last] => if last.isEmpty then [] else [last]
  | line :: rest => dropReturn line :: endLines rest

def lines (s : List Char) : List (List Char) := endLines (splitLines s)

theorem splitLines_ne_nil (s : List Char) : splitLines s ≠ [] := by
  cases s with
  | nil => simp [splitLines]
  | cons c s =>
    rw [splitLines]
    split
    · simp
    · split <;> simp

/-- A line feed separates the pieces before it from those behind it. -/
theorem splitLines_append_break (s t : List Char) :
    splitLines (s ++ '\n' :: t) = splitLines s ++ splitLines t := by
  induction s with
  | nil => simp [splitLines]
  | cons c s ih =>
    by_cases h : c = '\n'
    · simp [splitLines, h, ih]
    · cases hs : splitLines s with
      | nil => exact absurd hs (splitLines_ne_nil s)
      | cons line rest => simp [splitLines, h, ih, hs]

end Cutscene.Text
