/-
# Blanks between two texts

A blank ends what has begun, so it cuts a text in two that are read apart: the tokens of the whole
are those of the first text and then those of the second, and an error in the second is the same
error as many characters later as stand in front.

Two facts carry this.  What the scan does next depends on what has begun, and not on the tokens that
are complete or on the position (`step_shifted`, `run_shifted`).  And after a blank the state is the
start, shifted behind the tokens so far (`run_blanks`).

Without the blank the same state is reached as soon as the first character of the second text does
not go on with what has begun and is no parenthesis that makes a function of it (`Joins`).  What has
begun can be seen from the last character of the first text (`Pending.EndsWith`), so the two
characters at the boundary decide (`Meet`).
-/
import Fluxion.Proofs.Token.Stray

namespace Fluxion

/-- The error of a text, with `n` more characters in front of it. -/
def ScanError.shifted (n : Nat) : ScanError → ScanError
  | unexpected c p => unexpected c (n + p)
  | secondPoint p => secondPoint (n + p)

namespace Scan

/-! ## 1. The scan does not look back -/

/-- The state with the tokens `done` and `n` characters in front of its own. -/
def State.shifted (done : Array Token) (n : Nat) (s : State) : State :=
  ⟨done ++ s.done, s.pending, n + s.position⟩

/-- What comes of reading with the tokens `done` and `n` characters in front. -/
def shifted (done : Array Token) (n : Nat) : Except ScanError State → Except ScanError State
  | .ok s => .ok (s.shifted done n)
  | .error x => .error (x.shifted n)

section

variable (done : Array Token) (n : Nat)

theorem closed_shifted (s : State) (next : Option Char) :
    (s.shifted done n).closed next = done ++ s.closed next := by
  unfold State.closed State.shifted
  cases s.pending with
  | nothing => rfl
  | numeral text hasPoint => simp only [Array.push_append]
  | word letters => simp only [Array.push_append]

theorem begin_shifted (done' : Array Token) (position : Nat) (c : Char) :
    State.begin (done ++ done') (n + position) c =
      shifted done n (State.begin done' position c) := by
  unfold State.begin
  split
  · rfl
  split
  · rfl
  split
  · rfl
  split
  · simp only [shifted, State.shifted, Array.push_append, Nat.add_assoc]
  · rfl

/-- **A step depends on what has begun only.** -/
theorem step_shifted (s : State) (c : Char) :
    (s.shifted done n).step c = shifted done n (s.step c) := by
  have hbegin : State.begin ((s.shifted done n).closed (some c)) (n + s.position) c =
      shifted done n (State.begin (s.closed (some c)) s.position c) := by
    rw [closed_shifted, begin_shifted]
  obtain ⟨ts, pending, position⟩ := s
  cases pending with
  | nothing => exact begin_shifted done n ts position c
  | numeral text hasPoint =>
    simp only [State.step, State.shifted] at hbegin ⊢
    split
    · rfl
    split
    · split
      · rfl
      · rfl
    · exact hbegin
  | word letters =>
    simp only [State.step, State.shifted] at hbegin ⊢
    split
    · rfl
    · exact hbegin

/-- **So does a run.** -/
theorem run_shifted (s : State) (cs : List Char) :
    run (s.shifted done n) cs = shifted done n (run s cs) := by
  induction cs generalizing s with
  | nil => rfl
  | cons c cs ih =>
    have hstep := step_shifted done n s c
    cases hs : s.step c with
    | error x =>
      rw [hs] at hstep
      simp only [run, List.foldlM_cons, hstep, hs]
      rfl
    | ok mid =>
      rw [hs] at hstep
      rw [run_cons_of_ok hs, run_cons_of_ok hstep]
      exact ih mid

end

/-! ## 2. A fresh start -/

/-- What has begun is complete, and nothing else has begun. -/
def State.restarted (s : State) : State := State.start.shifted (s.closed none) s.position

theorem restarted_eq (s : State) : s.restarted = ⟨s.closed none, .nothing, s.position⟩ := by
  simp [State.restarted, State.shifted, State.start]

/-- A blank ends what has begun. -/
theorem step_blank (s : State) {c : Char} (h : Text.isBlank c = true) :
    s.step c = .ok ⟨s.closed none, .nothing, s.position + 1⟩ := by
  have hnumeric := not_isNumeric_of_isBlank h
  simp only [isNumeric, Bool.or_eq_false_iff, beq_eq_false_iff_ne] at hnumeric
  have halpha : c.isAlpha = false := by
    by_contra halpha
    rw [(not_blank_not_digit_of_isAlpha (Bool.of_not_eq_false halpha)).1] at h
    cases h
  have hparen : c ≠ '(' := by
    rintro rfl
    revert h
    decide
  obtain ⟨done, pending, position⟩ := s
  cases pending <;>
    simp [State.step, State.begin, State.closed, h, hnumeric.1, hnumeric.2, halpha, hparen]

/-- **After blanks the scan starts afresh.** -/
theorem run_blanks {w : List Char} (hne : w ≠ []) (hw : ∀ c ∈ w, Text.isBlank c = true)
    (s : State) :
    run s w = .ok (State.start.shifted (s.closed none) (s.position + w.length)) := by
  induction w generalizing s with
  | nil => exact absurd rfl hne
  | cons c w ih =>
    rw [run_cons_of_ok (step_blank s (hw c List.mem_cons_self))]
    rcases eq_or_ne w [] with rfl | hmore
    · simp [run, State.shifted, State.start, pure, Except.pure]
    · rw [ih hmore fun d hd => hw d (List.mem_cons_of_mem c hd)]
      simp [State.closed, Nat.add_assoc, Nat.add_comm 1]

/-- The character goes on with what has begun, or makes a function of it. -/
def Pending.Joins (c : Char) : Pending → Prop
  | .nothing => False
  | .numeral _ _ => isNumeric c = true
  | .word _ => c.isAlpha = true ∨ c = '('

/-- A character that does neither is read as after a fresh start. -/
theorem step_restarted {s : State} {c : Char} (h : ¬ s.pending.Joins c) :
    s.step c = s.restarted.step c := by
  rw [restarted_eq]
  obtain ⟨done, pending, position⟩ := s
  cases pending with
  | nothing => rfl
  | numeral text hasPoint =>
    simp only [Pending.Joins, isNumeric, Bool.or_eq_true, beq_iff_eq, not_or] at h
    simp [State.step, State.closed, h.1, h.2]
  | word letters =>
    simp only [Pending.Joins, not_or] at h
    simp [State.step, State.closed, h.1, h.2]

/-- So is a text that begins with such a character. -/
theorem finish_run_restarted {s : State} {cs : List Char}
    (h : ∀ c ∈ cs.head?, ¬ s.pending.Joins c) :
    (run s cs).map State.finish = (run s.restarted cs).map State.finish := by
  cases cs with
  | nil =>
    have hfinish : s.restarted.finish = s.finish := by
      rw [restarted_eq]
      rfl
    exact congrArg Except.ok hfinish.symm
  | cons c cs =>
    rw [run, run, List.foldlM_cons, List.foldlM_cons, step_restarted (h c rfl)]

/-! ## 3. What has begun, seen from the last character -/

/-- The character may be the last one of what has begun. -/
def Pending.EndsWith (c : Char) : Pending → Prop
  | .nothing => True
  | .numeral _ _ => isNumeric c = true
  | .word _ => c.isAlpha = true

theorem endsWith_begin {done : Array Token} {position : Nat} {c : Char} {s : State}
    (h : State.begin done position c = .ok s) : s.pending.EndsWith c := by
  unfold State.begin at h
  split at h
  · cases h
    trivial
  split at h
  · next hdigit =>
    cases h
    simp [Pending.EndsWith, isNumeric, hdigit]
  split at h
  · next halpha =>
    cases h
    exact halpha
  split at h
  · cases h
    trivial
  · cases h

theorem endsWith_step {s s' : State} {c : Char} (h : s.step c = .ok s') :
    s'.pending.EndsWith c := by
  unfold State.step at h
  split at h
  · split at h
    · next hdigit =>
      cases h
      simp [Pending.EndsWith, isNumeric, hdigit]
    split at h
    · next hpoint =>
      split at h
      · cases h
      · cases h
        simp [Pending.EndsWith, isNumeric, hpoint]
    · exact endsWith_begin h
  · split at h
    · next halpha =>
      cases h
      exact halpha
    · exact endsWith_begin h
  · exact endsWith_begin h

/-- **What has begun ends with the last character that was read.** -/
theorem endsWith_run {cs : List Char} {s : State} (h : run .start cs = .ok s)
    (hs : s.pending ≠ .nothing) : ∃ c, cs.getLast? = some c ∧ s.pending.EndsWith c := by
  rcases List.eq_nil_or_concat cs with rfl | ⟨front, c, rfl⟩
  · cases h
    exact absurd rfl hs
  · rw [List.concat_eq_append, run_append] at h
    cases hfront : run .start front with
    | error x => rw [hfront] at h; cases h
    | ok mid =>
      rw [hfront] at h
      obtain ⟨last, hstep, hlast⟩ := run_cons_eq_ok h
      cases hlast
      exact ⟨c, by simp, endsWith_step hstep⟩

end Scan

namespace Token

open Fluxion.Scan

/-! ## 4. Texts -/

/-- The last character of the first text and the first character of the second one belong together:
both are letters, or a letter stands in front of a parenthesis, or both are part of numerals. -/
def Meet (a b : String) : Prop :=
  ∃ c d, a.toList.getLast? = some c ∧ b.toList.head? = some d ∧
    (c.isAlpha = true ∧ (d.isAlpha = true ∨ d = '(') ∨ isNumeric c = true ∧ isNumeric d = true)

theorem meet_of_joins {a b : String} {s : State} {d : Char} (hrun : run .start a.toList = .ok s)
    (hd : b.toList.head? = some d) (h : s.pending.Joins d) : Meet a b := by
  have hpending : s.pending ≠ .nothing := by
    intro hnothing
    rw [hnothing] at h
    exact h
  obtain ⟨c, hc, hends⟩ := endsWith_run hrun hpending
  refine ⟨c, d, hc, hd, ?_⟩
  cases hp : s.pending with
  | nothing => exact absurd hp hpending
  | numeral text hasPoint =>
    rw [hp] at h hends
    exact Or.inr ⟨hends, h⟩
  | word letters =>
    rw [hp] at h hends
    exact Or.inl ⟨hends, h⟩

/-- A text that fails goes on to fail in the same way. -/
theorem ofText_append_of_error {a : String} {x : ScanError} (h : Token.ofText a = .error x)
    (b : String) : Token.ofText (a ++ b) = .error x := by
  rw [ofText_eq_error_iff] at h ⊢
  rw [String.toList_append, run_append, h]
  rfl

/-- Where the scan starts afresh between two texts, the second one is read as it is by itself. -/
theorem finish_run_fresh (done : Array Token) (n : Nat) (b : String) :
    (run (State.start.shifted done n) b.toList).map State.finish =
      ((Token.ofText b).map (done.toList ++ ·)).mapError (·.shifted n) := by
  rw [run_shifted, Token.ofText]
  cases run .start b.toList with
  | error x => rfl
  | ok s =>
    simp [shifted, Except.map, Except.mapError, State.finish, closed_shifted]

/-- The second of two texts with blanks between them. -/
theorem ofText_append_blanks {a w b : String} {ts : List Token} (ha : Token.ofText a = .ok ts)
    (hne : w ≠ "") (hw : ∀ c ∈ w.toList, Text.isBlank c = true) :
    Token.ofText (a ++ w ++ b) =
      ((Token.ofText b).map (ts ++ ·)).mapError (·.shifted (a.length + w.length)) := by
  obtain ⟨mid, hmid, rfl⟩ := ofText_eq_ok ha
  have hposition : mid.position = a.length := (hasRead_run hasRead_start hmid).1.position_eq
  have hwne : w.toList ≠ [] := by simpa using hne
  have hblanks := run_blanks hwne hw mid
  rw [hposition, String.length_toList] at hblanks
  rw [← finish_run_fresh, Token.ofText, String.toList_append, String.toList_append,
    List.append_assoc, run_append_of_ok hmid, run_append_of_ok hblanks]

/-- The second of two texts that do not belong together. -/
theorem ofText_append_apart {a b : String} {ts : List Token} (ha : Token.ofText a = .ok ts)
    (hapart : ¬ Meet a b) :
    Token.ofText (a ++ b) = ((Token.ofText b).map (ts ++ ·)).mapError (·.shifted a.length) := by
  obtain ⟨mid, hmid, rfl⟩ := ofText_eq_ok ha
  have hposition : mid.position = a.length := (hasRead_run hasRead_start hmid).1.position_eq
  have hjoins : ∀ d ∈ b.toList.head?, ¬ mid.pending.Joins d :=
    fun d hd hjoins => hapart (meet_of_joins hmid hd hjoins)
  rw [← finish_run_fresh, ← hposition, Token.ofText, String.toList_append, run_append_of_ok hmid]
  exact finish_run_restarted hjoins

/-- **Blanks are a boundary.**  A text that fails does so whatever follows the blanks behind it.
The tokens of two texts with blanks between them are the tokens of the one and then of the other,
and an error in the second is moved behind the first.  Between two texts that have tokens the blanks
make a difference only if the characters at the boundary belong together. -/
theorem ofText_across_blanks (a b w : String) (hne : w ≠ "")
    (hw : ∀ c ∈ w.toList, Text.isBlank c = true) :
    (∀ x, Token.ofText a = .error x → Token.ofText (a ++ w ++ b) = .error x) ∧
    (∀ ts x, Token.ofText a = .ok ts → Token.ofText b = .error x →
      Token.ofText (a ++ w ++ b) = .error (x.shifted (a.length + w.length))) ∧
    (∀ ts us, Token.ofText a = .ok ts → Token.ofText b = .ok us →
      Token.ofText (a ++ w ++ b) = .ok (ts ++ us) ∧
      (Token.ofText (a ++ b) ≠ Token.ofText (a ++ w ++ b) → Meet a b)) := by
  refine ⟨fun x hx => ?_, fun ts x ha hb => ?_, fun ts us ha hb => ?_⟩
  · rw [String.append_assoc]
    exact ofText_append_of_error hx (w ++ b)
  · rw [ofText_append_blanks ha hne hw, hb]
    rfl
  · have hblanks : Token.ofText (a ++ w ++ b) = .ok (ts ++ us) := by
      rw [ofText_append_blanks ha hne hw, hb]
      rfl
    refine ⟨hblanks, fun hdiffer => ?_⟩
    by_contra hapart
    rw [hblanks, ofText_append_apart ha hapart, hb] at hdiffer
    exact hdiffer rfl

/-- Blanks between a word and a parenthesis: the word is a variable, and without them it would be
a function. -/
theorem ofText_across_blanks_word :
    " \t" ≠ "" ∧ (∀ c ∈ " \t".toList, Text.isBlank c = true) ∧
      Token.ofText ("2.x" ++ " \t" ++ "(y)") =
        .ok [⟨.number, "2."⟩, ⟨.var, "x"⟩, ⟨.leftParen, "("⟩, ⟨.var, "y"⟩, ⟨.rightParen, ")"⟩] ∧
      Token.ofText ("2.x" ++ "(y)") ≠ Token.ofText ("2.x" ++ " \t" ++ "(y)") ∧
      Meet "2.x" "(y)" := by
  have hne : " \t" ≠ "" := by decide
  have hw : ∀ c ∈ " \t".toList, Text.isBlank c = true := List.all_eq_true.mp (by decide)
  have ha : Token.ofText "2.x" = .ok [⟨.number, "2."⟩, ⟨.var, "x"⟩] := by decide
  have hb : Token.ofText "(y)" =
      .ok [⟨.leftParen, "("⟩, ⟨.var, "y"⟩, ⟨.rightParen, ")"⟩] := by decide
  have hdiffer : Token.ofText ("2.x" ++ "(y)") ≠ Token.ofText ("2.x" ++ " \t" ++ "(y)") := by decide
  obtain ⟨hblanks, hmeet⟩ := (ofText_across_blanks "2.x" "(y)" " \t" hne hw).2.2 _ _ ha hb
  exact ⟨hne, hw, hblanks, hdiffer, hmeet hdiffer⟩

end Token

end Fluxion
