/-
# Token lists and texts

The token lists that a text can have are the well-formed ones: every token is a lexeme, and the
name of a function has its parenthesis right behind it (`WellFormed`).  Each of them is the token
list of a text, namely of its own texts with single spaces between them (`spaced`); only between
the name of a function and its parenthesis there must be none.

In the other direction no character is lost or invented: what a text and its tokens have in
common are the characters that are not blank.  Both halves of this are invariants of the scan.
`State.characters` are the characters of the tokens so far and of what has begun; a step adds the
character that was read, unless it is blank (`characters_step`).  And the tokens that a step
completes never end with the name of a function (`callsOpened_step`), because the parenthesis that
makes it one is completed in the same step.
-/
import Fluxion.Proofs.Token.Spelling

namespace Fluxion

open Fluxion.Numeral Fluxion.Scan

namespace Token

/-! ## 1. Well-formed lists -/

/-- Every name of a function has a parenthesis right behind it. -/
def CallsOpened : List Token → Prop
  | [] => True
  | t :: ts => (t.kind = .func → ts.head?.map (·.kind) = some .leftParen) ∧ CallsOpened ts

/-- The token lists of texts. -/
structure WellFormed (ts : List Token) : Prop where
  lexemes : ∀ t ∈ ts, t.IsLexeme
  callsOpened : CallsOpened ts

/-- The texts of the tokens with a space between them, but none behind the name of a function. -/
def spaced : List Token → String
  | [] => ""
  | [t] => t.text
  | t :: u :: ts => t.text ++ (if t.kind = .func then "" else " ") ++ spaced (u :: ts)

theorem CallsOpened.append {ts us : List Token} (hts : CallsOpened ts) (hus : CallsOpened us) :
    CallsOpened (ts ++ us) := by
  induction ts with
  | nil => exact hus
  | cons t ts ih =>
    refine ⟨fun hfunc => ?_, ih hts.2⟩
    have hhead := hts.1 hfunc
    cases ts with
    | nil => simp at hhead
    | cons u ts => exact hhead

theorem callsOpened_singleton {t : Token} (h : t.kind ≠ .func) : CallsOpened [t] :=
  ⟨fun hfunc => absurd hfunc h, trivial⟩

/-- Behind the name of a function stands a parenthesis. -/
theorem CallsOpened.behind {us vs : List Token} {t : Token} {f : String}
    (h : CallsOpened (us ++ t :: vs)) (hlast : us.getLast? = some ⟨.func, f⟩) :
    t.kind = .leftParen := by
  induction us with
  | nil => cases hlast
  | cons u us ih =>
    cases us with
    | nil =>
      obtain rfl : u = ⟨.func, f⟩ := by simpa using hlast
      simpa using h.1 rfl
    | cons v us => exact ih h.2 (by simpa using hlast)

theorem WellFormed.append {ts us : List Token} (hts : WellFormed ts) (hus : WellFormed us) :
    WellFormed (ts ++ us) := by
  refine ⟨?_, hts.callsOpened.append hus.callsOpened⟩
  intro t ht
  rcases List.mem_append.mp ht with ht | ht
  · exact hts.lexemes t ht
  · exact hus.lexemes t ht

/-- A token that is no name of a function may stand in front. -/
theorem WellFormed.cons {t : Token} {ts : List Token} (ht : t.IsLexeme) (hfunc : t.kind ≠ .func)
    (hts : WellFormed ts) : WellFormed (t :: ts) := by
  refine ⟨?_, fun h => absurd h hfunc, hts.callsOpened⟩
  intro u hu
  rcases List.mem_cons.mp hu with rfl | hu
  · exact ht
  · exact hts.lexemes u hu

theorem WellFormed.nil : WellFormed [] := ⟨by simp, trivial⟩

theorem WellFormed.tail {t : Token} {ts : List Token} (h : WellFormed (t :: ts)) :
    WellFormed ts :=
  ⟨fun u hu => h.lexemes u (List.mem_cons_of_mem t hu), h.callsOpened.2⟩

/-- The name of a function and what is behind it. -/
theorem WellFormed.call {t : Token} {ts : List Token} (h : WellFormed (t :: ts))
    (hfunc : t.kind = .func) :
    ∃ cs us, IsWord cs ∧ t = ⟨.func, String.ofList cs⟩ ∧ ts = ⟨.leftParen, "("⟩ :: us := by
  obtain ⟨cs, hword, rfl⟩ : ∃ cs, IsWord cs ∧ t = ⟨.func, String.ofList cs⟩ := by
    have ht : t.IsLexeme := h.lexemes t List.mem_cons_self
    cases ht with
    | @func cs hword => exact ⟨cs, hword, rfl⟩
    | number | const | var | leftParen | rightParen | comma | op => cases hfunc
  cases ts with
  | nil => simpa using h.callsOpened.1 hfunc
  | cons u us =>
    have hkind : u.kind = .leftParen := by simpa using h.callsOpened.1 hfunc
    have hu : u.IsLexeme := h.lexemes u (by simp)
    refine ⟨cs, us, hword, rfl, ?_⟩
    cases hu with
    | leftParen => rfl
    | number | const | var | func | rightParen | comma | op => cases hkind

/-! ## 2. From tokens to a text -/

/-- **A well-formed list is spelled by its texts with spaces between them.** -/
theorem WellFormed.spells : ∀ {ts : List Token}, WellFormed ts → Spells (spaced ts).toList ts
  | [], _ => Completes.nil.spells
  | [t], h => by
    have hfunc : t.kind ≠ .func := by
      intro hfunc
      obtain ⟨_, _, _, _, hnil⟩ := h.call hfunc
      cases hnil
    exact spells_lexeme (h.lexemes t List.mem_cons_self) hfunc
  | t :: u :: ts, h => by
    by_cases hfunc : t.kind = .func
    · obtain ⟨cs, us, hword, rfl, hbehind⟩ := h.call hfunc
      obtain ⟨rfl, rfl⟩ := List.cons.inj hbehind
      have hcall := completes_call hword
      cases ts with
      | nil => simpa [spaced] using hcall.spells
      | cons v vs =>
        have hnext : Spells (spaced (v :: vs)).toList (v :: vs) := h.tail.tail.spells
        simpa [spaced] using (hcall.append completes_blank).append_spells hnext
    · have hhead : Spells t.text.toList [t] := spells_lexeme (h.lexemes t List.mem_cons_self) hfunc
      have hnext : Spells (spaced (u :: ts)).toList (u :: ts) := h.tail.spells
      simpa [spaced, hfunc] using hhead.blank.append_spells hnext

end Token

/-! ## 3. From a text to tokens: the characters -/

namespace Scan

/-- The characters of several tokens. -/
def characters (ts : List Token) : List Char := ts.flatMap (·.text.toList)

@[simp] theorem characters_nil : characters [] = [] := rfl

@[simp] theorem characters_append (ts us : List Token) :
    characters (ts ++ us) = characters ts ++ characters us := List.flatMap_append

@[simp] theorem characters_singleton (t : Token) : characters [t] = t.text.toList := by
  simp [characters]

/-- The characters of what has begun. -/
def Pending.characters : Pending → List Char
  | .nothing => []
  | .numeral text _ => text
  | .word letters => letters

/-- The characters of the tokens so far and of what has begun. -/
def State.characters (s : State) : List Char :=
  Scan.characters s.done.toList ++ s.pending.characters

/-- The characters that are not blank. -/
def visible (cs : List Char) : List Char := cs.filter fun c => !Text.isBlank c

/-- Ending what has begun moves its characters into a token. -/
theorem characters_closed (s : State) (next : Option Char) :
    characters (s.closed next).toList = s.characters := by
  unfold State.closed State.characters
  cases s.pending with
  | nothing => simp [Pending.characters]
  | numeral text hasPoint => simp [Pending.characters]
  | word letters =>
    have htext : (if next = some '(' then (⟨.func, String.ofList letters⟩ : Token)
        else wordToken letters).text = String.ofList letters := by
      split <;> rfl
    simp [Pending.characters, htext]

/-- The token of a single character: its text is the character, and it is no name. -/
theorem symbolToken?_eq_some {c : Char} {t : Token} (h : symbolToken? c = some t) :
    t.text = String.singleton c ∧ t.kind ≠ .func := by
  unfold symbolToken? at h
  grind

theorem isBlank_of_isDigit {c : Char} (h : c.isDigit = true) : Text.isBlank c = false :=
  forall_digit (P := fun d => Text.isBlank d = false) (by decide) h

theorem characters_begin {done : Array Token} {position : Nat} {c : Char} {s : State}
    (h : State.begin done position c = .ok s) :
    s.characters = characters done.toList ++ visible [c] := by
  unfold State.begin at h
  split at h
  · next hblank =>
    cases h
    simp [State.characters, Pending.characters, visible, hblank]
  split at h
  · next hdigit =>
    cases h
    simp [State.characters, Pending.characters, visible, isBlank_of_isDigit hdigit]
  split at h
  · next halpha =>
    cases h
    simp [State.characters, Pending.characters, visible,
      (not_blank_not_digit_of_isAlpha halpha).1]
  split at h
  · next t ht =>
    cases h
    simp [State.characters, Pending.characters, visible, (symbolToken?_eq_some ht).1,
      (plain_of_symbolToken? ht).1]
  · cases h

/-- **A step adds the character that it reads**, unless the character is blank. -/
theorem characters_step {s s' : State} {c : Char} (h : s.step c = .ok s') :
    s'.characters = s.characters ++ visible [c] := by
  have hbegin : ∀ done position, characters done.toList = s.characters →
      State.begin done position c = .ok s' → s'.characters = s.characters ++ visible [c] := by
    intro done position hdone hok
    rw [characters_begin hok, hdone]
  unfold State.step at h
  split at h
  · next text hasPoint hp =>
    split at h
    · next hdigit =>
      cases h
      simp [State.characters, Pending.characters, visible, hp, isBlank_of_isDigit hdigit]
    split at h
    · next hpoint =>
      subst hpoint
      have hvisible : Text.isBlank '.' = false := by decide
      split at h
      · cases h
      · cases h
        simp [State.characters, Pending.characters, visible, hp, hvisible]
    · exact hbegin _ _ (characters_closed s _) h
  · next letters hp =>
    split at h
    · next halpha =>
      cases h
      simp [State.characters, Pending.characters, visible, hp,
        (not_blank_not_digit_of_isAlpha halpha).1]
    · exact hbegin _ _ (characters_closed s _) h
  · next hp =>
    exact hbegin _ _ (by simp [State.characters, Pending.characters, hp]) h

/-- **A run adds the visible characters of the text.** -/
theorem characters_run {cs : List Char} {s s' : State} (h : run s cs = .ok s') :
    s'.characters = s.characters ++ visible cs := by
  induction cs generalizing s with
  | nil =>
    cases h
    simp [visible]
  | cons c cs ih =>
    obtain ⟨mid, hstep, hrun⟩ := run_cons_eq_ok h
    have hcons : visible (c :: cs) = visible [c] ++ visible cs := by
      rw [visible, visible, visible, ← List.filter_append, List.singleton_append]
    rw [ih hrun, characters_step hstep, hcons, List.append_assoc]

/-! ## 4. From a text to tokens: the calls -/

open Token

/-- Ending what has begun keeps every call opened, unless it makes the name of a function. -/
theorem callsOpened_closed {s : State} (hs : CallsOpened s.done.toList) (next : Option Char) :
    CallsOpened (s.closed next).toList ∨
      next = some '(' ∧ ∃ f, s.closed next = s.done.push ⟨.func, f⟩ := by
  unfold State.closed
  split
  · exact Or.inl hs
  · rw [Array.toList_push]
    exact Or.inl (hs.append (callsOpened_singleton (by simp)))
  · next letters _ =>
    split
    · next hnext => exact Or.inr ⟨hnext, _, rfl⟩
    · have hword : (wordToken letters).kind ≠ .func := by
        simp only [wordToken]
        split <;> simp
      rw [Array.toList_push]
      exact Or.inl (hs.append (callsOpened_singleton hword))

theorem callsOpened_begin {done : Array Token} {position : Nat} {c : Char} {s : State}
    (h : State.begin done position c = .ok s) (hdone : CallsOpened done.toList) :
    CallsOpened s.done.toList := by
  unfold State.begin at h
  split at h
  · cases h; exact hdone
  split at h
  · cases h; exact hdone
  split at h
  · cases h; exact hdone
  split at h
  · next t ht =>
    cases h
    rw [Array.toList_push]
    exact hdone.append (callsOpened_singleton (symbolToken?_eq_some ht).2)
  · cases h

/-- **A step leaves no name of a function without its parenthesis**: the two are completed
together. -/
theorem callsOpened_step {s s' : State} {c : Char} (h : s.step c = .ok s')
    (hs : CallsOpened s.done.toList) : CallsOpened s'.done.toList := by
  have hclosed : State.begin (s.closed (some c)) s.position c = .ok s' →
      CallsOpened s'.done.toList := by
    intro hok
    rcases callsOpened_closed hs (some c) with hopened | ⟨hc, f, hpush⟩
    · exact callsOpened_begin hok hopened
    · obtain rfl : c = '(' := Option.some.inj hc
      have hparen : symbolToken? '(' = some ⟨.leftParen, "("⟩ := rfl
      rw [begin_symbol hparen] at hok
      cases hok
      have hcall : CallsOpened [⟨.func, f⟩, ⟨.leftParen, "("⟩] :=
        ⟨fun _ => rfl, callsOpened_singleton (by simp)⟩
      simpa [hpush] using hs.append hcall
  unfold State.step at h
  split at h
  · split at h
    · cases h; exact hs
    split at h
    · split at h
      · cases h
      · cases h; exact hs
    · exact hclosed h
  · split at h
    · cases h; exact hs
    · exact hclosed h
  · exact callsOpened_begin h hs

theorem callsOpened_run {cs : List Char} {s s' : State} (h : run s cs = .ok s')
    (hs : CallsOpened s.done.toList) : CallsOpened s'.done.toList := by
  induction cs generalizing s with
  | nil =>
    cases h
    exact hs
  | cons c cs ih =>
    obtain ⟨mid, hstep, hrun⟩ := run_cons_eq_ok h
    exact ih hrun (callsOpened_step hstep hs)

end Scan

/-! ## 5. Both directions -/

namespace Token

/-- **The tokens of a text are well formed.** -/
theorem wellFormed_of_ofText {s : String} {ts : List Token} (h : Token.ofText s = .ok ts) :
    WellFormed ts := by
  refine ⟨isLexeme_of_ofText h, ?_⟩
  obtain ⟨last, hrun, rfl⟩ := ofText_eq_ok h
  have hlast : CallsOpened last.done.toList := callsOpened_run hrun trivial
  rcases callsOpened_closed hlast none with hopened | ⟨hnone, -⟩
  · exact hopened
  · cases hnone

/-- Their characters are those of the text that are not blank. -/
theorem characters_of_ofText {s : String} {ts : List Token} (h : Token.ofText s = .ok ts) :
    characters ts = visible s.toList := by
  obtain ⟨last, hrun, rfl⟩ := ofText_eq_ok h
  rw [characters_closed, characters_run hrun]
  rfl

/-- **Texts and well-formed lists.**  A well-formed list is the token list of its texts with
single spaces between them.  And the tokens of any text are a well-formed list, whose texts one
after another are the text without its blanks. -/
theorem ofText_spaced (ts : List Token) (s : String) :
    (WellFormed ts → Token.ofText (spaced ts) = .ok ts) ∧
      (Token.ofText s = .ok ts → WellFormed ts ∧
        String.join (ts.map (·.text)) =
          String.ofList (s.toList.filter fun c => !Text.isBlank c)) := by
  constructor
  · intro h
    have htokens := h.spells.ofText
    rwa [String.ofList_toList] at htokens
  · intro h
    refine ⟨wellFormed_of_ofText h, ?_⟩
    have hcharacters : characters ts = visible s.toList := characters_of_ofText h
    have hjoin : (String.join (ts.map (·.text))).toList = characters ts := by
      rw [String.toList_join, List.flatMap_map]
      rfl
    rw [← String.toList_inj, String.toList_ofList, hjoin, hcharacters, visible]

end Token

end Fluxion
