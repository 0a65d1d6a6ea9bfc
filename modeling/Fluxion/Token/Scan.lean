/-
# From a text to its tokens

The text is read one character at a time.  Between characters the scan remembers the tokens that
are complete, the numeral or word that has begun, and how many characters are behind it.  A
character either continues what has begun, or ends it and is then read on its own.

* A numeral is a run of digits with at most one point, which may end it but not begin it.
* A word is a run of letters.  It is a function when a parenthesis follows at once, a constant
  when it is `e` or `pi`, and a variable otherwise.
* Brackets, commas and operators are tokens of one character.
* Blanks end what has begun and are dropped.

The first character that fits none of these stops the scan.  Since every step depends on the
characters behind it only, a text that begins with such a piece fails at the same place whatever
follows.
-/
import Fluxion.Text.Blank
import Fluxion.Token.Basic

namespace Fluxion

/-- Why a text has no tokens. -/
inductive ScanError where
  /-- A character that begins no token. -/
  | unexpected (c : Char) (position : Nat)
  /-- A numeral with two points. -/
  | secondPoint (position : Nat)
deriving DecidableEq, Repr

namespace ScanError

/-- Where the text went wrong, in characters from its start. -/
def position : ScanError → Nat
  | unexpected _ p => p
  | secondPoint p => p

/-- The text that reports the error. -/
def message : ScanError → String
  | unexpected c p =>
    "Unexpected character " ++ Text.quoted (String.singleton c) ++ " at position " ++ toString p
  | secondPoint p => "Second decimal point at position " ++ toString p

/-- The class that reports name the error by. -/
def label (_ : ScanError) : String := "LexError"

end ScanError

namespace Scan

/-- What has begun and may go on. -/
inductive Pending where
  | nothing
  /-- The characters of a numeral so far, and whether the point is among them. -/
  | numeral (text : List Char) (hasPoint : Bool)
  /-- The letters of a word so far. -/
  | word (letters : List Char)
deriving DecidableEq, Repr

/-- How far the scan has come. -/
structure State where
  /-- The tokens that are complete. -/
  done : Array Token
  pending : Pending
  /-- How many characters have been read. -/
  position : Nat
deriving DecidableEq, Repr

/-- The scan before the first character. -/
def State.start : State := ⟨#[], .nothing, 0⟩

/-- The names of the symbolic constants. -/
def constants : List String := ["e", "pi"]

/-- A word that is not followed by a parenthesis. -/
def wordToken (letters : List Char) : Token :=
  let name := String.ofList letters
  ⟨if name ∈ constants then .const else .var, name⟩

/-- The token that a single character is. -/
def symbolToken? (c : Char) : Option Token :=
  let text := String.singleton c
  if c = '(' then some ⟨.leftParen, text⟩
  else if c = ')' then some ⟨.rightParen, text⟩
  else if c = ',' then some ⟨.comma, text⟩
  else if c ∈ ['+', '-', '*', '/', '^'] then some ⟨.op, text⟩
  else none

namespace State

/-- The tokens once what has begun is complete; `next` is the character that ended it. -/
def closed (s : State) (next : Option Char) : Array Token :=
  match s.pending with
  | .nothing => s.done
  | .numeral text _ => s.done.push ⟨.number, String.ofList text⟩
  | .word letters =>
    s.done.push (if next = some '(' then ⟨.func, String.ofList letters⟩ else wordToken letters)

/-- Reads a character on its own, after the given tokens. -/
def begin (done : Array Token) (position : Nat) (c : Char) : Except ScanError State :=
  if Text.isBlank c then .ok ⟨done, .nothing, position + 1⟩
  else if c.isDigit then .ok ⟨done, .numeral [c] false, position + 1⟩
  else if c.isAlpha then .ok ⟨done, .word [c], position + 1⟩
  else match symbolToken? c with
    | some t => .ok ⟨done.push t, .nothing, position + 1⟩
    | none => .error (.unexpected c position)

/-- Reads one character. -/
def step (s : State) (c : Char) : Except ScanError State :=
  match s.pending with
  | .numeral text hasPoint =>
    if c.isDigit then .ok ⟨s.done, .numeral (text ++ [c]) hasPoint, s.position + 1⟩
    else if c = '.' then
      if hasPoint then .error (.secondPoint s.position)
      else .ok ⟨s.done, .numeral (text ++ [c]) true, s.position + 1⟩
    else begin (s.closed (some c)) s.position c
  | .word letters =>
    if c.isAlpha then .ok ⟨s.done, .word (letters ++ [c]), s.position + 1⟩
    else begin (s.closed (some c)) s.position c
  | .nothing => begin s.done s.position c

/-- The tokens at the end of the text. -/
def finish (s : State) : List Token := (s.closed none).toList

end State

/-- Reads characters from a given state on. -/
def run (s : State) (cs : List Char) : Except ScanError State :=
  cs.foldlM State.step s

/-- Reading a text in two parts comes to the same as reading it at once. -/
theorem run_append (s : State) (as bs : List Char) :
    run s (as ++ bs) = (run s as).bind fun s' => run s' bs := by
  simp only [run, List.foldlM_append]
  rfl

end Scan

/-- The tokens of a text. -/
def Token.ofText (s : String) : Except ScanError (List Token) :=
  (Scan.run .start s.toList).map Scan.State.finish

end Fluxion
