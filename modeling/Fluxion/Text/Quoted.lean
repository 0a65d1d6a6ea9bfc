/-
# Text between quotes

A message that quotes a piece of input must show it so that it can be told apart from any other
piece: the quotes mark both ends, and what would not be seen on a terminal is spelt out.

The single quote is used unless the text holds single quotes and no double quote.  A backslash
goes before the quote in use and before a backslash; line end, carriage return and tab have
letters of their own; any other unprintable character is given by its code point in two, four or
eight hexadecimal digits.
-/
import Fluxion.Text.Unprintable

namespace Fluxion.Text

/-- `n` in lower-case hexadecimal with at least `width` digits. -/
def hexDigits (width n : Nat) : List Char :=
  let ds := Nat.toDigits 16 n
  List.replicate (width - ds.length) '0' ++ ds

/-- A code point spelt out: `\x` with two digits, `\u` with four or `\U` with eight, the shortest
form that has room for it. -/
def codePointEscape (c : Char) : List Char :=
  if c.toNat < 0x100 then '\\' :: 'x' :: hexDigits 2 c.toNat
  else if c.toNat < 0x10000 then '\\' :: 'u' :: hexDigits 4 c.toNat
  else '\\' :: 'U' :: hexDigits 8 c.toNat

/-- How one character is shown between quotes of the kind `mark`. -/
def escape (mark c : Char) : List Char :=
  if c = mark ∨ c = '\\' then ['\\', c]
  else if c = '\n' then ['\\', 'n']
  else if c = '\r' then ['\\', 'r']
  else if c = '\t' then ['\\', 't']
  else if isPrintable c then [c]
  else codePointEscape c

/-- The quote that surrounds a text: single, unless that would need escapes that the double quote
avoids. -/
def quoteMark (cs : List Char) : Char :=
  if '\'' ∈ cs ∧ '"' ∉ cs then '"' else '\''

/-- The text between quotes. -/
def quoted (s : String) : String :=
  let mark := quoteMark s.toList
  String.ofList (mark :: (s.toList.flatMap (escape mark) ++ [mark]))

/-- The text between quotes, cut off after `most` characters.  The cut comes last: it counts the
quotes and the escapes, and it may fall inside an escape or lose the closing quote. -/
def quotedWithin (most : Nat) (s : String) : String :=
  String.ofList ((quoted s).toList.take most)

end Fluxion.Text
