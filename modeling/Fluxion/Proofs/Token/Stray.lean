/-
# Where a text goes wrong

A text has no tokens exactly when one of its characters fits nowhere: it is no blank, digit,
letter, operator, bracket or comma, and no point that a numeral can take (`Stray`).  Only for the
point does this depend on other characters, and only on the run of digits and points in front of
it (`numericRun`).  What comes later never matters, so the error is at the first stray character
and stays there whatever follows.

The scan has two places that report an error, one where a character is read on its own and one
inside a numeral.  `Pending.Fits` ties what the scan remembers to the characters in front, and one
lemma for a step (`step_outcome`) covers both places: the step goes wrong exactly at a stray
character, and at its own position.
-/
import Fluxion.Proofs.Token.Spaced

namespace Fluxion

namespace Scan

/-! ## 1. Stray characters -/

/-- The characters of which numerals are made. -/
def isNumeric (c : Char) : Bool := c.isDigit || c == '.'

/-- The digits and points at the end of a text. -/
def numericRun (before : List Char) : List Char := before.rtakeWhile isNumeric

/-- The text ends with digits to which a point may be added. -/
def TakesPoint (before : List Char) : Prop :=
  numericRun before ≠ [] ∧ '.' ∉ numericRun before

/-- The character `c` fits nowhere behind the characters `before`. -/
structure Stray (before : List Char) (c : Char) : Prop where
  not_blank : Text.isBlank c = false
  not_digit : c.isDigit = false
  not_letter : c.isAlpha = false
  not_symbol : c ∉ ['+', '-', '*', '/', '^', '(', ')', ',']
  not_point : ¬ (c = '.' ∧ TakesPoint before)

theorem numericRun_concat (before : List Char) (c : Char) :
    numericRun (before ++ [c]) = if isNumeric c then numericRun before ++ [c] else [] :=
  List.rtakeWhile_concat _ _ c

theorem symbolToken?_eq_none {c : Char} :
    symbolToken? c = none ↔ c ∉ ['+', '-', '*', '/', '^', '(', ')', ','] := by
  unfold symbolToken?
  grind

/-- Letters and symbols are no part of a numeral. -/
theorem not_isNumeric_of_isAlpha {c : Char} (h : c.isAlpha = true) : isNumeric c = false := by
  have hpoint : c ≠ '.' := by
    rintro rfl
    cases h
  simp [isNumeric, (not_blank_not_digit_of_isAlpha h).2, hpoint]

theorem not_isNumeric_of_symbolToken? {c : Char} {t : Token} (h : symbolToken? c = some t) :
    isNumeric c = false := by
  have hpoint : c ≠ '.' := by
    rintro rfl
    cases h
  simp [isNumeric, (plain_of_symbolToken? h).2.1, hpoint]

theorem not_isNumeric_of_isBlank {c : Char} (h : Text.isBlank c = true) : isNumeric c = false := by
  have hdigit : c.isDigit = false := by
    by_contra hdigit
    rw [isBlank_of_isDigit (Bool.of_not_eq_false hdigit)] at h
    cases h
  have hpoint : c ≠ '.' := by
    rintro rfl
    revert h
    decide
  simp [isNumeric, hdigit, hpoint]

/-! ## 2. One character -/

/-- What has begun is the numeral at the end of the characters `before`, if there is one. -/
def Pending.Fits (before : List Char) : Pending → Prop
  | .numeral text hasPoint =>
    numericRun before = text ∧ text ≠ [] ∧ (hasPoint = true ↔ '.' ∈ text)
  | .nothing | .word _ => numericRun before = []

/-- The state has read the characters `before`. -/
structure State.HasRead (s : State) (before : List Char) : Prop where
  position_eq : s.position = before.length
  fits : s.pending.Fits before

/-- What comes of the character `c` behind the characters `before`: a stray one is reported at its
place, any other one is read. -/
def Outcome (before : List Char) (c : Char) : Except ScanError State → Prop
  | .ok s => ¬ Stray before c ∧ s.HasRead (before ++ [c])
  | .error x => Stray before c ∧ x.position = before.length

section Character

variable {before : List Char} {c : Char}

/-- A character that is no part of a numeral leaves none at the end. -/
theorem numericRun_concat_of_not (h : isNumeric c = false) :
    numericRun (before ++ [c]) = [] := by
  rw [numericRun_concat, if_neg (by simp [h])]

theorem not_takesPoint_of_nil (h : numericRun before = []) : ¬ TakesPoint before :=
  fun hpoint => hpoint.1 h

/-- Read on its own, a character is reported exactly if it is stray. -/
theorem begin_outcome (done : Array Token) (hrun : isNumeric c = true → numericRun before = []) :
    Outcome before c (State.begin done before.length c) := by
  have hlength : before.length + 1 = (before ++ [c]).length := by simp
  unfold State.begin
  split
  · next hblank =>
    refine ⟨fun h => ?_, hlength, numericRun_concat_of_not (not_isNumeric_of_isBlank hblank)⟩
    rw [h.not_blank] at hblank
    cases hblank
  next hblank =>
  split
  · next hdigit =>
    have hnumeric : isNumeric c = true := by simp [isNumeric, hdigit]
    have hpoint : c ≠ '.' := by
      rintro rfl
      cases hdigit
    refine ⟨fun h => ?_, hlength, ?_, by simp, by simpa using hpoint.symm⟩
    · rw [h.not_digit] at hdigit
      cases hdigit
    · rw [numericRun_concat, if_pos hnumeric, hrun hnumeric, List.nil_append]
  next hdigit =>
  split
  · next halpha =>
    refine ⟨fun h => ?_, hlength, numericRun_concat_of_not (not_isNumeric_of_isAlpha halpha)⟩
    rw [h.not_letter] at halpha
    cases halpha
  next halpha =>
  split
  · next t ht =>
    refine ⟨fun h => ?_, hlength, numericRun_concat_of_not (not_isNumeric_of_symbolToken? ht)⟩
    rw [symbolToken?_eq_none.mpr h.not_symbol] at ht
    cases ht
  · next hnone =>
    refine ⟨⟨by simpa using hblank, by simpa using hdigit, by simpa using halpha,
      symbolToken?_eq_none.mp hnone, ?_⟩, rfl⟩
    rintro ⟨rfl, hpoint⟩
    exact not_takesPoint_of_nil (hrun (by decide)) hpoint

/-- **A step reports exactly the stray characters.**  Inside a numeral, a digit and the first
point go on with it; every other character is read on its own, where no numeral has begun. -/
theorem step_outcome {s : State} (h : s.HasRead before) : Outcome before c (s.step c) := by
  obtain ⟨hposition, hfits⟩ := h
  have hlength : before.length + 1 = (before ++ [c]).length := by simp
  unfold State.step
  rw [hposition]
  split
  · next text hasPoint hpending =>
    rw [hpending] at hfits
    obtain ⟨rfl, hne, hhas⟩ := hfits
    have hcontinue (hnumeric : isNumeric c = true) :
        numericRun (before ++ [c]) = numericRun before ++ [c] := by
      rw [numericRun_concat, if_pos hnumeric]
    split
    · next hdigit =>
      have hpoint : c ≠ '.' := by
        rintro rfl
        cases hdigit
      refine ⟨fun h => ?_, hlength, hcontinue (by simp [isNumeric, hdigit]), by simp, ?_⟩
      · rw [h.not_digit] at hdigit
        cases hdigit
      · rw [hhas]
        simp [hpoint.symm]
    next hdigit =>
    split
    · next hc =>
      subst hc
      split
      · next htrue =>
        have hmem : '.' ∈ numericRun before := hhas.mp htrue
        exact ⟨⟨by decide, by decide, by decide, by decide, fun h => h.2.2 hmem⟩, rfl⟩
      · next hfalse =>
        have htakes : TakesPoint before := ⟨hne, fun hmem => hfalse (hhas.mpr hmem)⟩
        exact ⟨fun h => h.not_point ⟨rfl, htakes⟩, hlength, hcontinue (by decide), by simp, by simp⟩
    · next hpoint =>
      exact begin_outcome _ fun hnumeric => by simp [isNumeric, hdigit, hpoint] at hnumeric
  · next letters hpending =>
    rw [hpending] at hfits
    split
    · next halpha =>
      refine ⟨fun h => ?_, hlength, numericRun_concat_of_not (not_isNumeric_of_isAlpha halpha)⟩
      rw [h.not_letter] at halpha
      cases halpha
    · exact begin_outcome _ fun _ => hfits
  · next hpending =>
    rw [hpending] at hfits
    exact begin_outcome _ fun _ => hfits

end Character

/-! ## 3. Whole texts -/

/-- A run that goes wrong does so at one character, behind a run that does not. -/
theorem exists_step_of_run_eq_error {cs : List Char} {s : State} {x : ScanError}
    (h : run s cs = .error x) :
    ∃ before c after s', cs = before ++ c :: after ∧ run s before = .ok s' ∧
      s'.step c = .error x := by
  induction cs generalizing s with
  | nil => cases h
  | cons c cs ih =>
    cases hstep : s.step c with
    | error y =>
      have hrun : run s (c :: cs) = .error y := by
        rw [run, List.foldlM_cons, hstep]
        rfl
      obtain rfl : y = x := by simpa [hrun] using h
      exact ⟨[], c, cs, s, rfl, rfl, hstep⟩
    | ok mid =>
      rw [run_cons_of_ok hstep] at h
      obtain ⟨before, d, after, s', rfl, hrun, herror⟩ := ih h
      exact ⟨c :: before, d, after, s', rfl, by rw [run_cons_of_ok hstep, hrun], herror⟩

/-- **A run that goes through has met no stray character**, and remembers what it has read. -/
theorem hasRead_run {cs before : List Char} {s s' : State} (hs : s.HasRead before)
    (h : run s cs = .ok s') :
    s'.HasRead (before ++ cs) ∧
      ∀ mid c after, cs = mid ++ c :: after → ¬ Stray (before ++ mid) c := by
  induction cs generalizing s before with
  | nil =>
    cases h
    refine ⟨by simpa using hs, ?_⟩
    intro mid c after hsplit
    simp at hsplit
  | cons d cs ih =>
    obtain ⟨next, hstep, hrun⟩ := run_cons_eq_ok h
    have hfirst : Outcome before d (s.step d) := step_outcome hs
    rw [hstep] at hfirst
    obtain ⟨hread, hlater⟩ := ih hfirst.2 hrun
    refine ⟨by simpa using hread, ?_⟩
    intro mid c after hsplit
    cases mid with
    | nil =>
      obtain ⟨rfl, rfl⟩ := List.cons.inj hsplit
      simpa using hfirst.1
    | cons e mid =>
      obtain ⟨rfl, hrest⟩ := List.cons.inj hsplit
      simpa using hlater mid c after hrest

theorem hasRead_start : State.start.HasRead [] := ⟨rfl, rfl⟩

/-- A run from the start that goes wrong: the stray character, what is in front of it, and the
same error behind whatever follows it. -/
theorem exists_stray_of_run_eq_error {cs : List Char} {x : ScanError}
    (h : run .start cs = .error x) :
    ∃ before c after, cs = before ++ c :: after ∧ Stray before c ∧ x.position = before.length ∧
      (∃ s, run .start before = .ok s) ∧
      ∀ more, run .start (before ++ c :: more) = .error x := by
  obtain ⟨before, c, after, s, hsplit, hrun, herror⟩ := exists_step_of_run_eq_error h
  have hread : s.HasRead before := (hasRead_run hasRead_start hrun).1
  have houtcome : Outcome before c (s.step c) := step_outcome hread
  rw [herror] at houtcome
  refine ⟨before, c, after, hsplit, houtcome.1, houtcome.2, ⟨s, hrun⟩, ?_⟩
  intro more
  rw [run_append_of_ok hrun, run, List.foldlM_cons, herror]
  rfl

end Scan

namespace Token

open Fluxion.Scan

/-- The first `n` characters of a text. -/
def front (s : String) (n : Nat) : String := String.ofList (s.toList.take n)

theorem ofText_ofList_of_run {cs : List Char} {s : State} (h : run .start cs = .ok s) :
    Token.ofText (String.ofList cs) = .ok s.finish := by
  rw [Token.ofText, String.toList_ofList, h]
  rfl

theorem ofText_eq_error_iff {s : String} {x : ScanError} :
    Token.ofText s = .error x ↔ run .start s.toList = .error x := by
  unfold Token.ofText
  cases run .start s.toList <;> simp [Except.map]

/-- The error is behind a text that has tokens, and no text that goes on from there has any. -/
theorem ofText_front_of_eq_error {s : String} {x : ScanError} (h : Token.ofText s = .error x) :
    x.position < s.length ∧ (∃ ts, Token.ofText (front s x.position) = .ok ts) ∧
      ∀ u, Token.ofText (front s (x.position + 1) ++ u) = .error x := by
  obtain ⟨before, c, after, hsplit, -, hposition, ⟨last, hrun⟩, hsame⟩ :=
    exists_stray_of_run_eq_error (ofText_eq_error_iff.mp h)
  have hbefore : s.toList.take x.position = before := by
    rw [hsplit, hposition, List.take_left]
  have hthrough : s.toList.take (x.position + 1) = before ++ [c] := by
    rw [hsplit, hposition, List.take_length_add_append, List.take_one, List.head?_cons]
    rfl
  refine ⟨?_, ⟨last.finish, ?_⟩, ?_⟩
  · rw [← String.length_toList, hsplit, hposition, List.length_append, List.length_cons]
    omega
  · rw [front, hbefore]
    exact ofText_ofList_of_run hrun
  · intro u
    rw [ofText_eq_error_iff, String.toList_append, front, String.toList_ofList, hthrough,
      List.append_assoc]
    exact hsame u.toList

/-- A text has no tokens exactly if it has a stray character. -/
theorem exists_ofText_eq_error_iff {s : String} :
    (∃ x, Token.ofText s = .error x) ↔
      ∃ before c after, s.toList = before ++ c :: after ∧ Stray before c := by
  constructor
  · rintro ⟨x, hx⟩
    obtain ⟨before, c, after, hsplit, hstray, -⟩ :=
      exists_stray_of_run_eq_error (ofText_eq_error_iff.mp hx)
    exact ⟨before, c, after, hsplit, hstray⟩
  · rintro ⟨before, c, after, hsplit, hstray⟩
    cases hs : Token.ofText s with
    | error x => exact ⟨x, rfl⟩
    | ok ts =>
      obtain ⟨last, hrun, -⟩ := ofText_eq_ok hs
      exact absurd hstray ((hasRead_run hasRead_start hrun).2 before c after hsplit)

/-- What a text with tokens begins with has tokens. -/
theorem exists_ofText_of_append {s t : String} (h : ∃ ts, Token.ofText (s ++ t) = .ok ts) :
    ∃ ts, Token.ofText s = .ok ts := by
  obtain ⟨ts, hts⟩ := h
  obtain ⟨last, hrun, -⟩ := ofText_eq_ok hts
  rw [String.toList_append, run_append] at hrun
  cases hs : run .start s.toList with
  | error x => rw [hs] at hrun; cases hrun
  | ok mid =>
    refine ⟨mid.finish, ?_⟩
    rw [Token.ofText, hs]
    rfl

/-- **Errors are at the first stray character.**  If a text has no tokens, the text in front of the
reported position has, and no text that begins with it and the character there has any: the error
is the same for all of them.  A text has no tokens exactly if it has a stray character; hence
whatever a text with tokens begins with has tokens. -/
theorem ofText_eq_error_at_stray (s : String) :
    (∀ x, Token.ofText s = .error x →
      x.position < s.length ∧
      (∃ ts, Token.ofText (front s x.position) = .ok ts) ∧
      ∀ u, Token.ofText (front s (x.position + 1) ++ u) = .error x) ∧
    ((∃ x, Token.ofText s = .error x) ↔
      ∃ before c after, s.toList = before ++ c :: after ∧ Stray before c) ∧
    ∀ t, (∃ ts, Token.ofText (s ++ t) = .ok ts) → ∃ ts, Token.ofText s = .ok ts :=
  ⟨fun _ hx => ofText_front_of_eq_error hx, exists_ofText_eq_error_iff,
    fun _ h => exists_ofText_of_append h⟩

example : Token.ofText "2.5.x" = .error (.secondPoint 3) := by decide

end Token

end Fluxion
