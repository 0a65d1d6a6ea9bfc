/-
# Spelling tokens

The scan read forwards: which tokens a piece of text adds, whatever stands before it.

* `Completes cs ts`: after the characters `cs` the tokens `ts` are complete and nothing has begun.
* `Spells cs ts`: after `cs` the last token may still be open, and any of the characters that end
  a token in the flat form (a blank, a closing parenthesis, a comma, the end of the text) makes
  the tokens `ts` complete.

Both hold at every place where nothing has begun, so pieces are put together by appending
(`Completes.append`, `Completes.append_spells`), and an open piece is closed by the character
behind it (`Spells.blank`, `Spells.symbol`).
-/
import Fluxion.Proofs.Token.Lexeme
import Mathlib

namespace Fluxion

open Fluxion.Numeral

namespace Scan

/-! ## 1. Single characters -/

/-- A character that is a token by itself is neither blank nor part of a numeral or a word. -/
theorem plain_of_symbolToken? {c : Char} {t : Token} (h : symbolToken? c = some t) :
    Text.isBlank c = false ∧ c.isDigit = false ∧ c.isAlpha = false := by
  have hc : c ∈ ['(', ')', ',', '+', '-', '*', '/', '^'] := by
    unfold symbolToken? at h
    grind
  have hplain : (['(', ')', ',', '+', '-', '*', '/', '^'].all fun d =>
      decide (Text.isBlank d = false ∧ d.isDigit = false ∧ d.isAlpha = false)) = true := by
    decide
  exact of_decide_eq_true (List.all_eq_true.mp hplain c hc)

/-- It is read as that token where nothing has begun. -/
theorem begin_symbol {done : Array Token} {position : Nat} {c : Char} {t : Token}
    (h : symbolToken? c = some t) :
    State.begin done position c = .ok ⟨done.push t, .nothing, position + 1⟩ := by
  obtain ⟨hblank, hdigit, halpha⟩ := plain_of_symbolToken? h
  simp [State.begin, hblank, hdigit, halpha, h]

/-- What may stand behind an open token of the flat form. -/
def Ends : Option Char → Prop
  | none => True
  | some c => c ∈ [' ', ')', ',']

/-- A character that ends tokens is read as if nothing had begun, once what had begun is
complete. -/
theorem step_of_ends {s : State} {c : Char} (h : Ends (some c)) :
    s.step c = State.begin (s.closed (some c)) s.position c := by
  have hplain : ([' ', ')', ','].all fun d =>
      decide (d.isDigit = false ∧ d.isAlpha = false ∧ d ≠ '.')) = true := by decide
  obtain ⟨hdigit, halpha, hpoint⟩ := of_decide_eq_true (List.all_eq_true.mp hplain c h)
  unfold State.step
  split
  · simp [hdigit, hpoint]
  · simp [halpha]
  · next hp => simp [State.closed, hp]

/-! ## 2. Pieces of text -/

/-- After `cs` the tokens `ts` are complete and nothing has begun. -/
def Completes (cs : List Char) (ts : List Token) : Prop :=
  ∀ s : State, s.pending = .nothing →
    ∃ s', run s cs = .ok s' ∧ s'.pending = .nothing ∧ s'.done.toList = s.done.toList ++ ts

/-- After `cs` the tokens `ts` are complete as soon as a character ends them. -/
def Spells (cs : List Char) (ts : List Token) : Prop :=
  ∀ s : State, s.pending = .nothing →
    ∃ s', run s cs = .ok s' ∧
      ∀ next, Ends next → (s'.closed next).toList = s.done.toList ++ ts

theorem run_append_of_ok {s s' : State} {as : List Char} (h : run s as = .ok s')
    (bs : List Char) : run s (as ++ bs) = run s' bs := by
  rw [run_append, h]
  rfl

theorem run_cons_of_ok {s s' : State} {c : Char} (h : s.step c = .ok s') (cs : List Char) :
    run s (c :: cs) = run s' cs := by
  rw [run, List.foldlM_cons, h]
  rfl

theorem Completes.nil : Completes [] [] := by
  intro s hs
  exact ⟨s, rfl, hs, by simp⟩

theorem Completes.append {as bs : List Char} {ts us : List Token} (ha : Completes as ts)
    (hb : Completes bs us) : Completes (as ++ bs) (ts ++ us) := by
  intro s hs
  obtain ⟨mid, hmid, hpending, hdone⟩ := ha s hs
  obtain ⟨last, hlast, hpending', hdone'⟩ := hb mid hpending
  refine ⟨last, ?_, hpending', ?_⟩
  · rw [run_append_of_ok hmid, hlast]
  · rw [hdone', hdone, List.append_assoc]

theorem Completes.append_spells {as bs : List Char} {ts us : List Token} (ha : Completes as ts)
    (hb : Spells bs us) : Spells (as ++ bs) (ts ++ us) := by
  intro s hs
  obtain ⟨mid, hmid, hpending, hdone⟩ := ha s hs
  obtain ⟨last, hlast, hclosed⟩ := hb mid hpending
  refine ⟨last, ?_, ?_⟩
  · rw [run_append_of_ok hmid, hlast]
  · intro next hnext
    rw [hclosed next hnext, hdone, List.append_assoc]

theorem Completes.spells {cs : List Char} {ts : List Token} (h : Completes cs ts) :
    Spells cs ts := by
  intro s hs
  obtain ⟨last, hlast, hpending, hdone⟩ := h s hs
  refine ⟨last, hlast, ?_⟩
  intro next _
  rw [State.closed, hpending]
  exact hdone

/-- A blank closes what is open. -/
theorem Spells.blank {cs : List Char} {ts : List Token} (h : Spells cs ts) :
    Completes (cs ++ [' ']) ts := by
  intro s hs
  obtain ⟨last, hlast, hclosed⟩ := h s hs
  have hends : Ends (some ' ') := by simp [Ends]
  have hstep : last.step ' ' = .ok ⟨last.closed (some ' '), .nothing, last.position + 1⟩ := by
    rw [step_of_ends hends]
    rfl
  refine ⟨⟨last.closed (some ' '), .nothing, last.position + 1⟩, ?_, rfl, hclosed _ hends⟩
  rw [run_append_of_ok hlast, run_cons_of_ok hstep]
  rfl

/-- A closing parenthesis or a comma closes what is open, and is a token itself. -/
theorem Spells.symbol {cs : List Char} {ts : List Token} {c : Char} {t : Token}
    (h : Spells cs ts) (hc : c = ')' ∨ c = ',') (ht : symbolToken? c = some t) :
    Completes (cs ++ [c]) (ts ++ [t]) := by
  intro s hs
  obtain ⟨last, hlast, hclosed⟩ := h s hs
  have hends : Ends (some c) := by
    rcases hc with rfl | rfl
    · simp [Ends]
    · simp [Ends]
  have hstep : last.step c =
      .ok ⟨(last.closed (some c)).push t, .nothing, last.position + 1⟩ := by
    rw [step_of_ends hends, begin_symbol ht]
  refine ⟨⟨(last.closed (some c)).push t, .nothing, last.position + 1⟩, ?_, rfl, ?_⟩
  · rw [run_append_of_ok hlast, run_cons_of_ok hstep]
    rfl
  · rw [Array.toList_push, hclosed _ hends, List.append_assoc]

theorem completes_symbol {c : Char} {t : Token} (ht : symbolToken? c = some t) :
    Completes [c] [t] := by
  intro s hs
  have hstep : s.step c = .ok ⟨s.done.push t, .nothing, s.position + 1⟩ := by
    rw [State.step, hs]
    exact begin_symbol ht
  refine ⟨⟨s.done.push t, .nothing, s.position + 1⟩, ?_, rfl, Array.toList_push⟩
  rw [run_cons_of_ok hstep]
  rfl

theorem completes_blank : Completes [' '] [] := Completes.nil.spells.blank

/-- The text of tokens is read as these tokens. -/
theorem Spells.ofText {cs : List Char} {ts : List Token} (h : Spells cs ts) :
    Token.ofText (String.ofList cs) = .ok ts := by
  obtain ⟨last, hlast, hclosed⟩ := h .start rfl
  have hdone : (last.closed none).toList = ts := by
    rw [hclosed none trivial]
    rfl
  rw [Token.ofText, String.toList_ofList, hlast]
  exact congrArg Except.ok hdone

/-! ## 3. Names -/

/-- A letter is neither blank nor a digit. -/
theorem not_blank_not_digit_of_isAlpha {c : Char} (h : c.isAlpha = true) :
    Text.isBlank c = false ∧ c.isDigit = false := by
  simp only [Char.isAlpha, Char.isUpper, Char.isLower, Bool.or_eq_true, Bool.and_eq_true,
    decide_eq_true_eq] at h
  have hletter : (65 ≤ c.toNat ∧ c.toNat ≤ 90) ∨ (97 ≤ c.toNat ∧ c.toNat ≤ 122) := h
  constructor
  · have hblanks : ∀ r ∈ Text.blanks, r.2 < 65 ∨ 122 < r.1 := by decide
    rw [Bool.eq_false_iff, Ne, Text.isBlank, Text.CodeRanges.contains_iff]
    rintro ⟨r, hr, hlow, hhigh⟩
    have hmiss := hblanks r hr
    omega
  · rw [Bool.eq_false_iff]
    intro hdigit
    simp only [Char.isDigit, Bool.and_eq_true, decide_eq_true_eq] at hdigit
    have hhigh : c.toNat ≤ 57 := hdigit.2
    omega

/-- Letters go on with a word that has begun. -/
theorem run_word {letters more : List Char} {done : Array Token} {position : Nat}
    (h : ∀ c ∈ more, c.isAlpha = true) :
    run ⟨done, .word letters, position⟩ more =
      .ok ⟨done, .word (letters ++ more), position + more.length⟩ := by
  induction more generalizing letters position with
  | nil => simp [run, pure, Except.pure]
  | cons c more ih =>
    have hstep : State.step ⟨done, .word letters, position⟩ c =
        .ok ⟨done, .word (letters ++ [c]), position + 1⟩ := by
      simp [State.step, h c List.mem_cons_self]
    rw [run_cons_of_ok hstep, ih fun d hd => h d (List.mem_cons_of_mem c hd)]
    simp [Nat.add_comm, Nat.add_left_comm]

/-- A word that begins where nothing has begun is open at its end. -/
theorem run_isWord {cs : List Char} (h : IsWord cs) {s : State} (hs : s.pending = .nothing) :
    run s cs = .ok ⟨s.done, .word cs, s.position + cs.length⟩ := by
  obtain ⟨c, more, rfl⟩ := List.exists_cons_of_ne_nil h.1
  have halpha : c.isAlpha = true := h.2 c List.mem_cons_self
  obtain ⟨hblank, hdigit⟩ := not_blank_not_digit_of_isAlpha halpha
  have hstep : s.step c = .ok ⟨s.done, .word [c], s.position + 1⟩ := by
    rw [State.step, hs]
    simp [State.begin, hblank, hdigit, halpha]
  rw [run_cons_of_ok hstep, run_word fun d hd => h.2 d (List.mem_cons_of_mem c hd)]
  simp [Nat.add_comm, Nat.add_left_comm]

/-- A word that no parenthesis follows is a constant or a variable. -/
theorem spells_word {cs : List Char} (h : IsWord cs) : Spells cs [wordToken cs] := by
  intro s hs
  refine ⟨_, run_isWord h hs, ?_⟩
  intro next hnext
  have hne : next ≠ some '(' := by
    rintro rfl
    simp [Ends] at hnext
  simp [State.closed, hne]

/-- A word with a parenthesis behind it is a function. -/
theorem completes_call {cs : List Char} (h : IsWord cs) :
    Completes (cs ++ ['(']) [⟨.func, String.ofList cs⟩, ⟨.leftParen, "("⟩] := by
  intro s hs
  let last : State := ⟨(s.done.push ⟨.func, String.ofList cs⟩).push ⟨.leftParen, "("⟩, .nothing,
    s.position + cs.length + 1⟩
  have hstep : State.step ⟨s.done, .word cs, s.position + cs.length⟩ '(' = .ok last := rfl
  refine ⟨last, ?_, rfl, by simp [last]⟩
  rw [run_append_of_ok (run_isWord h hs), run_cons_of_ok hstep]
  rfl

/-! ## 4. Numerals -/

/-- Digits go on with a numeral that has begun. -/
theorem run_digits {text more : List Char} {hasPoint : Bool} {done : Array Token}
    {position : Nat} (h : AllDigits more) :
    run ⟨done, .numeral text hasPoint, position⟩ more =
      .ok ⟨done, .numeral (text ++ more) hasPoint, position + more.length⟩ := by
  induction more generalizing text position with
  | nil => simp [run, pure, Except.pure]
  | cons c more ih =>
    have hstep : State.step ⟨done, .numeral text hasPoint, position⟩ c =
        .ok ⟨done, .numeral (text ++ [c]) hasPoint, position + 1⟩ := by
      simp [State.step, h c List.mem_cons_self]
    rw [run_cons_of_ok hstep, ih fun d hd => h d (List.mem_cons_of_mem c hd)]
    simp [Nat.add_comm, Nat.add_left_comm]

/-- A run of digits is open at its end. -/
theorem run_whole {whole : List Char} (hne : whole ≠ []) (hwhole : AllDigits whole) {s : State}
    (hs : s.pending = .nothing) :
    run s whole = .ok ⟨s.done, .numeral whole false, s.position + whole.length⟩ := by
  obtain ⟨c, more, rfl⟩ := List.exists_cons_of_ne_nil hne
  have hdigit : c.isDigit = true := hwhole c List.mem_cons_self
  have hblank : Text.isBlank c = false :=
    forall_digit (P := fun d => Text.isBlank d = false) (by decide) hdigit
  have hstep : s.step c = .ok ⟨s.done, .numeral [c] false, s.position + 1⟩ := by
    rw [State.step, hs]
    simp [State.begin, hblank, hdigit]
  rw [run_cons_of_ok hstep, run_digits fun d hd => hwhole d (List.mem_cons_of_mem c hd)]
  simp [Nat.add_comm, Nat.add_left_comm]

/-- So is a plain numeral. -/
theorem run_plain {cs : List Char} (h : IsPlain cs) {s : State} (hs : s.pending = .nothing) :
    ∃ hasPoint, run s cs = .ok ⟨s.done, .numeral cs hasPoint, s.position + cs.length⟩ := by
  obtain ⟨whole, fraction?, rfl, hne, hwhole, hfraction⟩ := h
  cases fraction? with
  | none => exact ⟨false, run_whole hne hwhole hs⟩
  | some fraction =>
    have hpoint : State.step ⟨s.done, .numeral whole false, s.position + whole.length⟩ '.' =
        .ok ⟨s.done, .numeral (whole ++ ['.']) true, s.position + whole.length + 1⟩ := rfl
    refine ⟨true, ?_⟩
    rw [plainNumeral, run_append_of_ok (run_whole hne hwhole hs), run_cons_of_ok hpoint,
      run_digits (hfraction fraction rfl)]
    simp [Nat.add_assoc, Nat.add_comm 1]

theorem spells_plain {cs : List Char} (h : IsPlain cs) :
    Spells cs [⟨.number, String.ofList cs⟩] := by
  intro s hs
  obtain ⟨hasPoint, hrun⟩ := run_plain h hs
  refine ⟨_, hrun, ?_⟩
  intro next _
  simp [State.closed]

/-- A numeral with a negative exponent falls apart: the letter in front of the exponent is a
word, and the sign is an operator. -/
theorem spells_exponent {cs ds : List Char} (h : IsPlain cs) (hne : ds ≠ [])
    (hds : AllDigits ds) :
    Spells (cs ++ 'e' :: '-' :: ds)
      [⟨.number, String.ofList cs⟩, ⟨.const, "e"⟩, ⟨.op, "-"⟩, ⟨.number, String.ofList ds⟩] := by
  intro s hs
  obtain ⟨hasPoint, hrun⟩ := run_plain h hs
  let mid : State := ⟨s.done.push ⟨.number, String.ofList cs⟩, .word ['e'],
    s.position + cs.length + 1⟩
  let last : State := ⟨(mid.done.push ⟨.const, "e"⟩).push ⟨.op, "-"⟩, .nothing,
    mid.position + 1⟩
  have hletter : State.step ⟨s.done, .numeral cs hasPoint, s.position + cs.length⟩ 'e' = .ok mid :=
    rfl
  have hsign : mid.step '-' = .ok last := rfl
  refine ⟨⟨last.done, .numeral ds false, last.position + ds.length⟩, ?_, ?_⟩
  · rw [run_append_of_ok hrun, run_cons_of_ok hletter, run_cons_of_ok hsign,
      run_whole hne hds rfl]
  · intro next _
    simp [State.closed, last, mid]

/-! ## 5. Lexemes -/

/-- A constant is a word. -/
theorem isWord_of_mem_constants {c : String} (h : c ∈ constants) : IsWord c.toList := by
  simp only [constants, List.mem_cons, List.not_mem_nil, or_false] at h
  rcases h with rfl | rfl
  · exact ⟨by decide, List.all_eq_true.mp (by decide)⟩
  · exact ⟨by decide, List.all_eq_true.mp (by decide)⟩

/-- **Every lexeme but the name of a function is spelled by its own text.** -/
theorem spells_lexeme {t : Token} (h : t.IsLexeme) (hfunc : t.kind ≠ .func) :
    Spells t.text.toList [t] := by
  cases h with
  | @number cs hplain =>
    rw [String.toList_ofList]
    exact spells_plain hplain
  | @const c hc =>
    have hspells := spells_word (isWord_of_mem_constants hc)
    rwa [wordToken, String.ofList_toList, if_pos hc] at hspells
  | @var cs hword hnot =>
    have hspells := spells_word hword
    rw [wordToken, if_neg hnot] at hspells
    rwa [String.toList_ofList]
  | func _ => exact absurd rfl hfunc
  | leftParen => exact (completes_symbol rfl).spells
  | rightParen => exact (completes_symbol rfl).spells
  | comma => exact (completes_symbol rfl).spells
  | op op hop =>
    cases op with
    | add | sub | mul | div | pow => exact (completes_symbol rfl).spells
    | other s => cases hop

end Scan

end Fluxion
