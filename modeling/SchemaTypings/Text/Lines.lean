/-!
# Lines of a text

A line ends at a line feed, or at the end of the text. A carriage return right
before the line feed belongs to the line end; any other carriage return is part
of its line. After a final line feed there is no further line.
-/

namespace SchemaTypings.Text

def lines : List Char → List (List Char)
  | [] => []
  | '\n' :: rest => [] :: lines rest
  | '\r' :: '\n' :: rest => [] :: lines rest
  | c :: rest =>
    match lines rest with
    | [] => [[c]]
    | line :: others => (c :: line) :: others

/-- Only the empty text has no lines. -/
theorem lines_eq_nil_iff {text : List Char} : lines text = [] ↔ text = [] := by
  fun_cases lines text <;> simp_all

end SchemaTypings.Text
