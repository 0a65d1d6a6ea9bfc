/-
# Places in a token list

Between two tokens a term is unfinished in one of three ways: an operand has to come, the
parenthesis of a call has to come, or an operand has just ended.  Around it groups and argument
lists are open.  A `Place` says both, and `Place.step` says which tokens may come next and where
they lead.  This is the grammar seen from left to right: a machine with a stack of brackets, which
looks at every token once and builds no tree.

* What a symbol derives leads from "an operand has to come" to "an operand has ended", with the
  same brackets open (`Derives.run`).
* From every place the end can be reached: `Place.completion` lists the tokens that are missing.
-/
import Fluxion.Proofs.Grammar.Readable

namespace Fluxion

namespace Grammar

/-! ## 1. Places -/

/-- What an open parenthesis belongs to. -/
inductive Bracket where
  | group
  | call
deriving DecidableEq, Repr

/-- What has to come next. -/
inductive Need where
  /-- An operand, or a sign in front of one. -/
  | operand
  /-- The parenthesis behind the name of a function. -/
  | opening
  /-- Nothing: an operand has ended, and an operator, a comma or a parenthesis may follow. -/
  | nothing
deriving DecidableEq, Repr

/-- A place between two tokens: what has to come, and the open brackets from the innermost out. -/
structure Place where
  need : Need
  brackets : List Bracket
deriving DecidableEq, Repr

namespace Place

/-- The place before the first token. -/
def start : Place := ⟨.operand, []⟩

/-- The place behind a whole term. -/
def finish : Place := ⟨.nothing, []⟩

/-- The place behind a token that stands where an operand has to come. -/
def stepOperand (t : Token) (around : List Bracket) : Option Place :=
  match t.kind with
  | .number => if (Numeral.readFloat t.text).isSome then some ⟨.nothing, around⟩ else none
  | .const | .var => some ⟨.nothing, around⟩
  | .func => some ⟨.opening, around⟩
  | .leftParen => some ⟨.operand, .group :: around⟩
  | .op => if t.op? = some .sub then some ⟨.operand, around⟩ else none
  | .rightParen | .comma | .other _ => none

/-- The place behind a token that stands behind an operand. -/
def stepNothing (t : Token) (around : List Bracket) : Option Place :=
  match t.kind, around with
  | .op, _ => if t.op?.any Op.isKnown then some ⟨.operand, around⟩ else none
  | .comma, .call :: _ => some ⟨.operand, around⟩
  | .rightParen, _ :: outer => some ⟨.nothing, outer⟩
  | _, _ => none

/-- The place behind a token, if the token may stand there. -/
def step (p : Place) (t : Token) : Option Place :=
  match p.need with
  | .operand => stepOperand t p.brackets
  | .opening => if t.kind = .leftParen then some ⟨.operand, .call :: p.brackets⟩ else none
  | .nothing => stepNothing t p.brackets

/-- The place behind several tokens. -/
def run (p : Place) (ts : List Token) : Option Place := ts.foldlM step p

variable {p q : Place} {t : Token} {ts us : List Token} {around : List Bracket}

@[simp] theorem run_nil : p.run [] = some p := rfl

@[simp] theorem run_cons : p.run (t :: ts) = (p.step t).bind (·.run ts) := rfl

theorem run_append : p.run (ts ++ us) = (p.run ts).bind (·.run us) := by
  rw [run, List.foldlM_append]
  rfl

/-- What leads to a place can be followed by what leads on from there. -/
theorem run_append_of_run (h : p.run ts = some q) (us : List Token) :
    p.run (ts ++ us) = q.run us := by
  rw [run_append, h]
  rfl

/-- A list that leads somewhere leads somewhere with every front. -/
theorem exists_run_of_append (h : p.run (ts ++ us) = some q) :
    ∃ mid, p.run ts = some mid ∧ mid.run us = some q := by
  rw [run_append] at h
  exact Option.bind_eq_some_iff.mp h

/-! ## 2. Single tokens -/

theorem step_number {v : Float} {text : String} (h : Numeral.readFloat text = some v) :
    step ⟨.operand, around⟩ ⟨.number, text⟩ = some ⟨.nothing, around⟩ := by
  simp [step, stepOperand, h]

theorem step_func (h : t.kind = .func) :
    step ⟨.operand, around⟩ t = some ⟨.opening, around⟩ := by
  simp [step, stepOperand, h]

theorem step_group (h : t.kind = .leftParen) :
    step ⟨.operand, around⟩ t = some ⟨.operand, .group :: around⟩ := by
  simp [step, stepOperand, h]

theorem step_sign (h : t.op? = some .sub) :
    step ⟨.operand, around⟩ t = some ⟨.operand, around⟩ := by
  have hkind : t.kind = .op := by
    by_contra hne
    simp [Token.op?, hne] at h
  simp [step, stepOperand, hkind, h]

theorem step_opening (h : t.kind = .leftParen) :
    step ⟨.opening, around⟩ t = some ⟨.operand, .call :: around⟩ := by
  simp [step, h]

/-- A known operator goes on behind an operand. -/
theorem step_op {op : Op} (h : t.op? = some op) (hop : op.isKnown = true) :
    step ⟨.nothing, around⟩ t = some ⟨.operand, around⟩ := by
  have hkind : t.kind = .op := by
    by_contra hne
    simp [Token.op?, hne] at h
  simp [step, stepNothing, hkind, h, hop]

theorem step_comma (h : t.kind = .comma) :
    step ⟨.nothing, .call :: around⟩ t = some ⟨.operand, .call :: around⟩ := by
  simp [step, stepNothing, h]

theorem step_close {b : Bracket} (h : t.kind = .rightParen) :
    step ⟨.nothing, b :: around⟩ t = some ⟨.nothing, around⟩ := by
  simp [step, stepNothing, h]

/-- A token leads to a place where a parenthesis has to come just when it names a function. -/
theorem need_step (h : p.step t = some q) : q.need = .opening ↔ t.kind = .func := by
  obtain ⟨need, around⟩ := p
  cases need with
  | operand =>
    simp only [step, stepOperand] at h
    split at h <;> grind
  | opening =>
    simp only [step] at h
    grind
  | nothing =>
    simp only [step, stepNothing] at h
    split at h <;> grind

end Place

/-! ## 3. Derivations -/

open Place

/-- What further arguments lead through: the brackets around them stay open. -/
theorem Further.run {more : List Further} {around : List Bracket}
    (hcommas : ∀ m ∈ more, m.comma.kind = .comma)
    (h : ∀ m ∈ more, Place.run ⟨.operand, .call :: around⟩ m.tokens =
      some ⟨.nothing, .call :: around⟩) :
    Place.run ⟨.nothing, .call :: around⟩ (Further.all more) =
      some ⟨.nothing, .call :: around⟩ := by
  induction more with
  | nil => rfl
  | cons m more ih =>
    have htail := ih (fun d hd => hcommas d (List.mem_cons_of_mem m hd))
      fun d hd => h d (List.mem_cons_of_mem m hd)
    have hcons : Further.all (m :: more) = m.comma :: (m.tokens ++ Further.all more) := rfl
    rw [hcons, run_cons, step_comma (hcommas m List.mem_cons_self), Option.bind_some,
      run_append_of_run (h m List.mem_cons_self), htail]

/-- **What a symbol derives is an operand**, or several with operators between them: it leads from
where an operand has to come to where one has ended, whatever is open around it. -/
theorem Derives.run {s : Symbol} {ts : List Token} {e : Expr} (h : Derives s ts e)
    (around : List Bracket) :
    Place.run ⟨.operand, around⟩ ts = some ⟨.nothing, around⟩ := by
  induction h generalizing around with
  | ofFactor _ ih | ofPower _ ih | ofUnary _ ih | ofPrimary _ ih => exact ih around
  | sum _ hop hacc _ ihl ihr =>
    rw [run_append_of_run (ihl around), run_cons, step_op hop (isKnown_of_isAdditive hacc),
      Option.bind_some, ihr around]
  | product _ hop hacc _ ihl ihr =>
    rw [run_append_of_run (ihl around), run_cons, step_op hop (isKnown_of_isMultiplicative hacc),
      Option.bind_some, ihr around]
  | raise _ hop _ ihl ihr =>
    rw [run_append_of_run (ihl around), run_cons, step_op hop rfl, Option.bind_some, ihr around]
  | sign hop _ ih => rw [run_cons, step_sign hop, Option.bind_some, ih around]
  | number hread => rw [run_cons, step_number hread]; rfl
  | const c => rfl
  | var x => rfl
  | @call f opening closing ts e more hopening hclosing _ hcommas _ ih ihall =>
    have hmore : Place.run ⟨.nothing, .call :: around⟩ (Further.all more) =
        some ⟨.nothing, .call :: around⟩ :=
      Further.run hcommas fun m hm => ihall m hm (.call :: around)
    rw [run_cons, step_func rfl, Option.bind_some, run_cons, step_opening hopening,
      Option.bind_some, List.append_assoc, run_append_of_run (ih _), run_append_of_run hmore,
      run_cons, step_close hclosing]
    rfl
  | @group opening closing ts e hopening hclosing _ ih =>
    rw [run_cons, step_group hopening, Option.bind_some, run_append_of_run (ih _), run_cons,
      step_close hclosing]
    rfl

/-! ## 4. What is missing -/

namespace Place

/-- The tokens that end the innermost operand. -/
def ending : Need → List Token
  | .operand => [⟨.var, "x"⟩]
  | .opening => [⟨.leftParen, "("⟩, ⟨.var, "x"⟩, ⟨.rightParen, ")"⟩]
  | .nothing => []

/-- Tokens that lead from a place to the end of a term. -/
def completion (p : Place) : List Token :=
  ending p.need ++ List.replicate p.brackets.length ⟨.rightParen, ")"⟩

theorem run_closing (around : List Bracket) :
    run ⟨.nothing, around⟩ (List.replicate around.length ⟨.rightParen, ")"⟩) = some finish := by
  induction around with
  | nil => rfl
  | cons b around ih =>
    rw [List.length_cons, List.replicate_succ, run_cons, step_close rfl, Option.bind_some, ih]

/-- **From every place the end can be reached.** -/
theorem run_completion (p : Place) : p.run p.completion = some finish := by
  obtain ⟨need, around⟩ := p
  have hending : run ⟨need, around⟩ (ending need) = some ⟨.nothing, around⟩ := by
    cases need <;> rfl
  rw [completion, run_append_of_run hending, run_closing]

theorem isLexeme_completion (p : Place) : ∀ t ∈ p.completion, t.IsLexeme := by
  have hword : IsWord ['x'] := ⟨by decide, List.all_eq_true.mp (by decide)⟩
  have hvar : Token.IsLexeme ⟨.var, "x"⟩ := .var hword (by decide)
  intro t ht
  rcases List.mem_append.mp ht with ht | ht
  · cases hneed : p.need with
    | operand =>
      obtain rfl : t = ⟨.var, "x"⟩ := by simpa [ending, hneed] using ht
      exact hvar
    | opening =>
      simp only [ending, hneed, List.mem_cons, List.not_mem_nil, or_false] at ht
      rcases ht with rfl | rfl | rfl
      · exact .leftParen
      · exact hvar
      · exact .rightParen
    | nothing => simp [ending, hneed] at ht
  · rw [List.eq_of_mem_replicate ht]
    exact .rightParen

/-- How many tokens are missing. -/
def missing (p : Place) : Nat := p.completion.length

theorem missing_operand (around : List Bracket) :
    missing ⟨.operand, around⟩ = around.length + 1 := by
  simp [missing, completion, ending]

theorem missing_opening (around : List Bracket) :
    missing ⟨.opening, around⟩ = around.length + 3 := by
  simp only [missing, completion, ending, List.length_append, List.length_cons, List.length_nil,
    List.length_replicate]
  omega

theorem missing_nothing (around : List Bracket) :
    missing ⟨.nothing, around⟩ = around.length := by
  simp [missing, completion, ending]

end Place

end Grammar

end Fluxion
