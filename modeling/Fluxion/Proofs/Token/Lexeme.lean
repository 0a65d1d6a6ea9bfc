/-
# The tokens of a text

The scan emits few of the tokens that there are: a number token holds a plain numeral, a name is a
word of letters, and every other token has one of eight texts.  `Token.IsLexeme` says which ones,
and `isLexeme_of_ofText` that the scan emits nothing else.

What carries the proof is a property of the state between two characters
(`Scan.State.WellFormed`): the tokens that are complete are lexemes, and what has begun is the
beginning of one, so that ending it at any place gives a lexeme again.
-/
import Fluxion.Proofs.Numeral.Plain
import Fluxion.Token.Scan

namespace Fluxion

open Fluxion.Numeral

/-! ## 1. Lexemes -/

/-- The characters of a name: letters, at least one. -/
def IsWord (cs : List Char) : Prop := cs ≠ [] ∧ ∀ c ∈ cs, c.isAlpha = true

/-- The tokens that a text can have. -/
inductive Token.IsLexeme : Token → Prop where
  | number {cs : List Char} : IsPlain cs → IsLexeme ⟨.number, String.ofList cs⟩
  | const {c : String} : c ∈ Scan.constants → IsLexeme ⟨.const, c⟩
  | var {cs : List Char} : IsWord cs → String.ofList cs ∉ Scan.constants →
      IsLexeme ⟨.var, String.ofList cs⟩
  | func {cs : List Char} : IsWord cs → IsLexeme ⟨.func, String.ofList cs⟩
  | leftParen : IsLexeme ⟨.leftParen, "("⟩
  | rightParen : IsLexeme ⟨.rightParen, ")"⟩
  | comma : IsLexeme ⟨.comma, ","⟩
  | op (op : Op) : op.isKnown = true → IsLexeme ⟨.op, op.symbol⟩

theorem isLexeme_wordToken {cs : List Char} (h : IsWord cs) : (Scan.wordToken cs).IsLexeme := by
  rw [Scan.wordToken]
  by_cases hconst : String.ofList cs ∈ Scan.constants
  · simp only [hconst, if_true]
    exact .const hconst
  · simp only [hconst, if_false]
    exact .var h hconst

theorem isLexeme_of_symbolToken? {c : Char} {t : Token} (h : Scan.symbolToken? c = some t) :
    t.IsLexeme := by
  unfold Scan.symbolToken? at h
  split at h
  · next hc => cases h; subst hc; exact .leftParen
  split at h
  · next hc => cases h; subst hc; exact .rightParen
  split at h
  · next hc => cases h; subst hc; exact .comma
  split at h
  · next hc =>
    cases h
    simp only [List.mem_cons, List.not_mem_nil, or_false] at hc
    rcases hc with rfl | rfl | rfl | rfl | rfl
    · exact .op .add rfl
    · exact .op .sub rfl
    · exact .op .mul rfl
    · exact .op .div rfl
    · exact .op .pow rfl
  · cases h

/-! ## 2. Between two characters -/

namespace Scan

/-- What has begun is the beginning of a token, and the mark of a numeral tells whether the point
is among its characters. -/
def Pending.WellFormed : Pending → Prop
  | .nothing => True
  | .numeral text hasPoint =>
    ∃ whole fraction?, text = plainNumeral whole fraction? ∧ whole ≠ [] ∧ AllDigits whole ∧
      (∀ fraction ∈ fraction?, AllDigits fraction) ∧ hasPoint = fraction?.isSome
  | .word letters => IsWord letters

/-- The tokens that are complete are lexemes, and what has begun is the beginning of one. -/
structure State.WellFormed (s : State) : Prop where
  done : ∀ t ∈ s.done, t.IsLexeme
  pending : s.pending.WellFormed

theorem State.WellFormed.start : State.start.WellFormed := ⟨by simp [State.start], trivial⟩

theorem forall_mem_push {done : Array Token} {t : Token} (hdone : ∀ t ∈ done, t.IsLexeme)
    (ht : t.IsLexeme) : ∀ u ∈ done.push t, u.IsLexeme := by
  intro u hu
  rcases Array.mem_push.mp hu with hu | rfl
  · exact hdone u hu
  · exact ht

/-- Whatever character ends it, what has begun becomes a lexeme. -/
theorem State.WellFormed.closed {s : State} (h : s.WellFormed) (next : Option Char) :
    ∀ t ∈ s.closed next, t.IsLexeme := by
  have hpending := h.pending
  unfold State.closed
  split
  · exact h.done
  · next text hasPoint hp =>
    rw [hp] at hpending
    obtain ⟨whole, fraction?, htext, hne, hwhole, hfraction, -⟩ := hpending
    exact forall_mem_push h.done (.number ⟨whole, fraction?, htext, hne, hwhole, hfraction⟩)
  · next letters hp =>
    rw [hp] at hpending
    refine forall_mem_push h.done ?_
    split
    · exact .func hpending
    · exact isLexeme_wordToken hpending

theorem State.WellFormed.begin {done : Array Token} {position : Nat} {c : Char} {s : State}
    (hdone : ∀ t ∈ done, t.IsLexeme) (h : State.begin done position c = .ok s) :
    s.WellFormed := by
  unfold State.begin at h
  split at h
  · cases h
    exact ⟨hdone, trivial⟩
  split at h
  · next hdigit =>
    cases h
    refine ⟨hdone, [c], none, rfl, by simp, ?_, by simp, rfl⟩
    intro d hd
    rw [List.mem_singleton.mp hd]
    exact hdigit
  split at h
  · next halpha =>
    cases h
    refine ⟨hdone, by simp, ?_⟩
    intro d hd
    rw [List.mem_singleton.mp hd]
    exact halpha
  split at h
  · next t ht =>
    cases h
    exact ⟨forall_mem_push hdone (isLexeme_of_symbolToken? ht), trivial⟩
  · cases h

/-- A numeral goes on with a digit. -/
theorem plainNumeral_append_digit {whole : List Char} {fraction? : Option (List Char)} {c : Char}
    (hwhole : AllDigits whole) (hfraction : ∀ fraction ∈ fraction?, AllDigits fraction)
    (hc : c.isDigit = true) (hne : whole ≠ []) :
    ∃ whole' fraction?', plainNumeral whole fraction? ++ [c] = plainNumeral whole' fraction?' ∧
      whole' ≠ [] ∧ AllDigits whole' ∧ (∀ fraction ∈ fraction?', AllDigits fraction) ∧
      fraction?.isSome = fraction?'.isSome := by
  have hone : AllDigits [c] := by
    intro d hd
    rw [List.mem_singleton.mp hd]
    exact hc
  cases fraction? with
  | none => exact ⟨whole ++ [c], none, rfl, by simp, hwhole.append hone, by simp, rfl⟩
  | some fraction =>
    refine ⟨whole, some (fraction ++ [c]), by simp [plainNumeral], hne, hwhole, ?_, rfl⟩
    rintro _ ⟨⟩
    exact (hfraction fraction rfl).append hone

/-- One character keeps the state well formed. -/
theorem State.WellFormed.step {s s' : State} {c : Char} (hs : s.WellFormed)
    (h : s.step c = .ok s') : s'.WellFormed := by
  have hpending := hs.pending
  unfold State.step at h
  split at h
  · next text hasPoint hp =>
    rw [hp] at hpending
    obtain ⟨whole, fraction?, rfl, hne, hwhole, hfraction, rfl⟩ := hpending
    split at h
    · next hdigit =>
      cases h
      exact ⟨hs.done, plainNumeral_append_digit hwhole hfraction hdigit hne⟩
    split at h
    · next hpoint =>
      subst hpoint
      cases fraction? with
      | none =>
        cases h
        exact ⟨hs.done, whole, some [], rfl, hne, hwhole, by simp [AllDigits], rfl⟩
      | some fraction => cases h
    · exact .begin (hs.closed _) h
  · next letters hp =>
    rw [hp] at hpending
    split at h
    · next halpha =>
      cases h
      refine ⟨hs.done, by simp, ?_⟩
      intro d hd
      rcases List.mem_append.mp hd with hd | hd
      · exact hpending.2 d hd
      · rw [List.mem_singleton.mp hd]
        exact halpha
    · exact .begin (hs.closed _) h
  · exact .begin hs.done h

/-- A run that succeeds reads the first character and goes on from there. -/
theorem run_cons_eq_ok {s s' : State} {c : Char} {cs : List Char} (h : run s (c :: cs) = .ok s') :
    ∃ mid, s.step c = .ok mid ∧ run mid cs = .ok s' := by
  rw [run, List.foldlM_cons] at h
  cases hstep : s.step c with
  | error x => rw [hstep] at h; cases h
  | ok mid =>
    rw [hstep] at h
    exact ⟨mid, rfl, h⟩

/-- So does a whole text. -/
theorem State.WellFormed.run {cs : List Char} {s s' : State} (hs : s.WellFormed)
    (h : run s cs = .ok s') : s'.WellFormed := by
  induction cs generalizing s with
  | nil =>
    cases h
    exact hs
  | cons c cs ih =>
    obtain ⟨mid, hstep, hrun⟩ := run_cons_eq_ok h
    exact ih (hs.step hstep) hrun

end Scan

/-- The tokens of a text come from a run of the scan. -/
theorem Token.ofText_eq_ok {s : String} {ts : List Token} (h : Token.ofText s = .ok ts) :
    ∃ last, Scan.run .start s.toList = .ok last ∧ ts = (last.closed none).toList := by
  unfold Token.ofText at h
  cases hrun : Scan.run .start s.toList with
  | error x => rw [hrun] at h; cases h
  | ok last =>
    rw [hrun] at h
    cases h
    exact ⟨last, rfl, rfl⟩

/-- **A text has no tokens but lexemes.** -/
theorem isLexeme_of_ofText {s : String} {ts : List Token} (h : Token.ofText s = .ok ts) :
    ∀ t ∈ ts, t.IsLexeme := by
  obtain ⟨last, hrun, rfl⟩ := Token.ofText_eq_ok h
  have hlast : last.WellFormed := Scan.State.WellFormed.start.run hrun
  intro t ht
  exact hlast.closed none t (Array.mem_toList_iff.mp ht)

end Fluxion
