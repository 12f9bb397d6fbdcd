import TextKit.Text.Blank

/-!
# Cutting texts into pieces

Words, delimited fields, and lines are three readings of `List.splitOnP`, which
returns what lies between the characters that satisfy a predicate. Words are
the pieces that are not empty. A line loses the carriage return in front of its
line feed, and a text that ends in a line feed has no further line after it.
-/

namespace TextKit.Text

/-- The maximal runs of characters that are not blank. -/
def words (t : Text) : List Text := (t.splitOnP isBlank).filter (! ·.isEmpty)

/-- The pieces between the occurrences of a delimiter. -/
def delimited (delimiter : Char) (t : Text) : List Text := t.splitOnP (· == delimiter)

/-- A line without the carriage return before its line feed. -/
def dropReturn (line : Text) : Text :=
  if line.getLast? = some '\r' then line.dropLast else line

/-- The lines of a text: each is ended by a line feed, except that the last may
also be ended by the end of the text, when it is not empty and keeps a carriage
return at its end. -/
def lines (t : Text) : List Text :=
  let pieces := t.splitOnP (· == '\n')
  let last := pieces.getLast?.getD []
  pieces.dropLast.map dropReturn ++ if last.isEmpty then [] else [last]

/-- Write lines, each followed by a line feed. -/
def unlines (ls : List Text) : Text := ls.flatMap (· ++ ['\n'])

@[simp] theorem unlines_nil : unlines [] = [] := rfl

@[simp] theorem unlines_cons (l : Text) (ls : List Text) :
    unlines (l :: ls) = l ++ '\n' :: unlines ls := by
  simp [unlines]

end TextKit.Text
