import Dcpu16.Text.Lines

/-!
# Lines that are put together

Texts without a line end of their own, each followed by a line feed, are the lines of what they make
together (`lines_flatMap`).
-/
namespace Dcpu16.Text

/-- A line goes on as long as no line feed comes. -/
theorem linesFrom_append {text : List Char} (inside : '\n' ∉ text) (done : List (List Char))
    (line rest : List Char) :
    linesFrom done line (text ++ rest) = linesFrom done (text.reverse ++ line) rest := by
  induction text generalizing line with
  | nil => rfl
  | cons c text ih =>
    rw [List.mem_cons, not_or] at inside
    rw [List.cons_append, linesFrom.eq_3 _ _ _ _ (Ne.symm inside.1), ih inside.2]
    simp

/-- Nothing is taken from a line that does not end with a carriage return. -/
theorem endedLine_reverse {line : List Char} (open_ : line.getLast? ≠ some '\r') :
    endedLine line.reverse = line := by
  unfold endedLine
  split
  · next rest same =>
    refine absurd ?_ open_
    rw [← List.head?_reverse, same]
    rfl
  · exact List.reverse_reverse line

/-- Lines that are each followed by a line feed are the lines of the text behind others. -/
theorem linesFrom_flatMap {lines : List (List Char)}
    (each : ∀ line ∈ lines, '\n' ∉ line ∧ line.getLast? ≠ some '\r') (done : List (List Char)) :
    linesFrom done [] (lines.flatMap fun line => line ++ ['\n']) = done.reverse ++ lines := by
  induction lines generalizing done with
  | nil => simp [linesFrom]
  | cons line lines ih =>
    obtain ⟨inside, open_⟩ := each line (by simp)
    rw [List.flatMap_cons, List.append_assoc, linesFrom_append inside, List.append_nil,
      List.singleton_append, linesFrom, endedLine_reverse open_,
      ih (fun other member => each other (by simp [member]))]
    simp

/-- Lines that are each followed by a line feed are the lines of the text. -/
theorem lines_flatMap {lines : List (List Char)}
    (each : ∀ line ∈ lines, '\n' ∉ line ∧ line.getLast? ≠ some '\r') :
    Text.lines (lines.flatMap fun line => line ++ ['\n']) = lines :=
  linesFrom_flatMap each []

end Dcpu16.Text
