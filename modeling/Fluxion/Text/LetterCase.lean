/-
# Changing the case of a text

`toCapitals` and `toSmalls` map every letter of every script.  The result may be longer than the
text.  One letter depends on its neighbours: a capital sigma becomes the final form `ς` where a
word ends, that is, after a cased letter and not before one, with marks and apostrophes passed
over on both sides.
-/
import Fluxion.Text.LetterCase.Capitals
import Fluxion.Text.LetterCase.Smalls

namespace Fluxion.Text

/-- The image of one character, given the letters with a long image and the runs of the others. -/
def mapCase (long : List (Nat × List Nat)) (runs : List CaseRun) (c : Char) : List Char :=
  match long.lookup c.toNat with
  | some image => image.map Char.ofNat
  | none => [(CaseRun.image? runs c).getD c]

/-- The text in capitals. -/
def toCapitals (s : String) : String :=
  String.ofList (s.toList.flatMap (mapCase longCapitals capitalRuns))

/-- Past the characters that a word skips, the list starts with a cased letter. -/
def meetsCased (cs : List Char) : Bool :=
  match cs.dropWhile caseIgnorable.contains with
  | c :: _ => casedLetters.contains c
  | [] => false

/-- The small form of a sigma between `before` (nearest first) and `after`. -/
def smallSigma (before after : List Char) : Char :=
  if meetsCased before && !meetsCased after then 'ς' else 'σ'

/-- The small letters of `cs`, which follows the characters `before` (nearest first). -/
def smallsAfter (before : List Char) : List Char → List Char
  | [] => []
  | c :: rest =>
    (if c = 'Σ' then [smallSigma before rest] else mapCase longSmalls smallRuns c)
      ++ smallsAfter (c :: before) rest

/-- The text in small letters. -/
def toSmalls (s : String) : String :=
  String.ofList (smallsAfter [] s.toList)

end Fluxion.Text
