/-!
# Lines — a printed text cut at its newlines
-/

namespace Sequencer.Text

/-- A line without the carriage return at its end. -/
def dropReturn (line : List Char) : List Char :=
  match line.reverse with
  | '\r' :: rest => rest.reverse
  | _ => line

/-- The lines of a text; `current` is the line so far, last character first. A text that ends in a
newline has no empty line after it. -/
def linesFrom (current : List Char) : List Char → List (List Char)
  | [] => if current.isEmpty then [] else [current.reverse]
  | c :: rest =>
    if c = '\n' then dropReturn current.reverse :: linesFrom [] rest
    else linesFrom (c :: current) rest

/-- The lines of a text. Each ends at a newline, and a carriage return before it is no part of the
line. -/
def lines (text : String) : List String :=
  (linesFrom [] text.toList).map String.ofList

end Sequencer.Text
