/-
# Lines of a text

A line ends at a line feed, at a carriage return, or at the two together, whatever system wrote
the text.  No other character ends a line.  A last piece without an end counts as a line when it
holds a character.
-/
namespace Fluxion.Text

/-- The lines of a list of characters, without their ends. -/
def splitLines : List Char → List (List Char)
  | [] => []
  | '\r' :: '\n' :: rest => [] :: splitLines rest
  | '\r' :: rest => [] :: splitLines rest
  | '\n' :: rest => [] :: splitLines rest
  | c :: rest =>
    match splitLines rest with
    | [] => [[c]]
    | line :: more => (c :: line) :: more

/-- The lines of a text, without their ends. -/
def lines (s : String) : List String :=
  (splitLines s.toList).map String.ofList

end Fluxion.Text
