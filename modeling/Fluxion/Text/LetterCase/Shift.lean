/-
# Runs of letters with one case offset

Most letters map to a single letter at a fixed distance, and neighbouring letters share that
distance: all of them in a row (`a` to `z`), or every second one (`ā`, `ă`, `ą`).  A case mapping
is a list of such runs, with the few letters that map to several characters beside it.
-/
namespace Fluxion.Text

/-- The letters `first`, `first + stride`, …, `last`, each of which maps to the letter `offset`
code points further. -/
structure CaseRun where
  first : Nat
  last : Nat
  stride : Nat
  offset : Int

/-- The image of `c` under the first run that holds it. -/
def CaseRun.image? (runs : List CaseRun) (c : Char) : Option Char :=
  (runs.find? fun r =>
      r.first ≤ c.toNat && c.toNat ≤ r.last && (c.toNat - r.first) % r.stride == 0).map
    fun r => Char.ofNat ((c.toNat : Int) + r.offset).toNat

end Fluxion.Text
