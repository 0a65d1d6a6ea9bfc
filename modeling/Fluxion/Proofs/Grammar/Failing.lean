/-
# How reading fails

A reader goes on until it fails, and fails at the first token that may not stand in its place.
`Place.error` says what error such a token causes, by the place alone.  `FailsFrom` says of an
error that it is the right one: either the tokens lead to a place from which something is still
missing, and the error is the end of the list, or they lead up to a token that may not follow, and
the error is the one it causes there.

Every reader fails this way (`FailsWell`), given that the reader of its operands does.  What it
read before it failed is covered by its soundness: that part is derived, and so leads to the end of
an operand (`Advances`).  Where a reader succeeds it stops in front of a token that no operator
could follow; that is why the token behind an argument or a group is to blame if it is no comma and
no parenthesis (`term_stops`).
-/
import Fluxion.Proofs.Grammar.Place

namespace Fluxion

namespace Grammar

open Place

/-! ## 1. One reader at a time

When each reader fails, in terms of how its parts fail. -/

theorem fails_widen {α β : Type} {ts us : List Token} {f : α → β} {h : ts.length ≤ us.length}
    {reading : Reading α ts} {x : GrammarError} :
    Reading.widen f h reading = .error x ↔ reading = .error x := by
  rcases reading with y | ⟨a, rest, lt⟩ <;> simp [Reading.widen]

theorem fails_chainFrom {accepts : Op → Bool} {operand : Reader} {left : Expr} {ts : List Token}
    {x : GrammarError} :
    chainFrom accepts operand left ts = .error x ↔
      ∃ t us, ts = t :: us ∧ ∃ op, accepted? accepts t = some op ∧
        (operand us = .error x ∨ ∃ right mid, Gives (operand us) right mid ∧
          chainFrom accepts operand (.bin op left right) mid = .error x) := by
  cases ts with
  | nil => simp [chainFrom]
  | cons t us =>
    rw [chainFrom, exists_cons_eq]
    cases hacc : accepted? accepts t with
    | none => simp
    | some op =>
      simp only [Option.some.injEq, exists_eq_left']
      rcases operand us with y | ⟨right, mid, lt⟩
      · simp
      · simp only [exists_gives_ok, reduceCtorEq, false_or]
        rcases chainFrom accepts operand (.bin op left right) mid with y | ⟨e, last, le⟩
        · simp
        · simp

theorem fails_chain {accepts : Op → Bool} {operand : Reader} {ts : List Token}
    {x : GrammarError} :
    chain accepts operand ts = .error x ↔
      operand ts = .error x ∨ ∃ left mid, Gives (operand ts) left mid ∧
        chainFrom accepts operand left mid = .error x := by
  rw [chain]
  rcases operand ts with y | ⟨left, mid, lt⟩
  · simp
  · simp only [exists_gives_ok, reduceCtorEq, false_or]
    rcases chainFrom accepts operand left mid with y | ⟨e, last, le⟩
    · simp
    · simp

theorem fails_power {operand : Reader} {ts : List Token} {x : GrammarError} :
    power operand ts = .error x ↔
      operand ts = .error x ∨ ∃ base mid, Gives (operand ts) base mid ∧
        ∃ t us, mid = t :: us ∧ t.op? = some .pow ∧ power operand us = .error x := by
  rw [power]
  rcases operand ts with y | ⟨base, mid, lt⟩
  · simp
  · simp only [exists_gives_ok, reduceCtorEq, false_or]
    cases mid with
    | nil => simp
    | cons t us =>
      rw [exists_cons_eq]
      have hpow : accepted? (· == .pow) t = some .pow ↔ t.op? = some .pow := by
        simp [accepted?_eq_some]
      cases hacc : accepted? (· == .pow) t with
      | none =>
        have hne : t.op? ≠ some .pow := fun h => by simp [hpow.mpr h] at hacc
        simp [hacc, hne]
      | some op =>
        obtain rfl : op = .pow := by simpa using (accepted?_eq_some.mp hacc).2
        simp [hacc, hpow.mp hacc, fails_widen]

theorem fails_arguments {operand : Reader} {ts : List Token} {x : GrammarError} :
    arguments operand ts = .error x ↔
      term operand ts = .error x ∨ ∃ first mid, Gives (term operand ts) first mid ∧
        ∃ t us, mid = t :: us ∧ t.kind = .comma ∧ arguments operand us = .error x := by
  rw [arguments]
  rcases term operand ts with y | ⟨first, mid, lt⟩
  · simp
  · simp only [exists_gives_ok, reduceCtorEq, false_or]
    cases mid with
    | nil => simp
    | cons t us =>
      rw [exists_cons_eq]
      by_cases hcomma : t.kind = .comma
      · simp [hcomma, fails_widen]
      · simp [hcomma]

theorem fails_bracket {kind : Kind} {ts : List Token} {x : GrammarError} :
    bracket kind ts = .error x ↔
      (ts = [] ∧ x = .unexpectedEnd) ∨
        ∃ t us, ts = t :: us ∧ t.kind ≠ kind ∧ x = .bracketExpected kind t := by
  cases ts with
  | nil => simp [bracket, eq_comm]
  | cons t us =>
    rw [bracket, exists_cons_eq]
    by_cases hkind : t.kind = kind
    · simp [hkind]
    · simp [hkind, eq_comm]

theorem fails_closing {α : Type} {ts : List Token} {body : Reading α ts} {x : GrammarError} :
    closing body = .error x ↔
      body = .error x ∨ ∃ a mid, Gives body a mid ∧ bracket .rightParen mid = .error x := by
  rcases body with y | ⟨a, mid, lt⟩
  · simp [closing]
  · simp only [closing, fails_widen, exists_gives_ok, reduceCtorEq, false_or]

/-- When a primary fails, by the kind of its first token. -/
theorem fails_primary {total : Nat} {operand : Reader} {t : Token} {ts : List Token}
    {x : GrammarError} :
    primary total operand (t :: ts) = .error x ↔
      (t.kind = .number ∧ Numeral.readFloat t.text = none ∧ x = .badNumeral t.text) ∨
        (t.kind = .func ∧ (bracket .leftParen ts = .error x ∨
          ∃ opening us, ts = opening :: us ∧ opening.kind = .leftParen ∧
            closing (arguments operand us) = .error x)) ∨
        (t.kind = .leftParen ∧ closing (term operand ts) = .error x) ∨
        (t.kind = .rightParen ∧ x = .operandExpected (indexBefore total ts)) ∨
        (t.kind = .op ∧ x = .strayOperator t.text (indexBefore total ts)) ∨
        ((t.kind = .comma ∨ ∃ label, t.kind = .other label) ∧
          x = .strayToken t (indexBefore total ts)) := by
  rw [primary]
  cases hkind : t.kind with
  | number =>
    cases hread : Numeral.readFloat t.text with
    | none => simp [number, hread, Except.map, eq_comm]
    | some v => simp [number, hread, Except.map]
  | const | var => simp
  | func =>
    simp only [reduceCtorEq, false_and, false_or, or_false, true_and, exists_const]
    cases ts with
    | nil => simp [bracket]
    | cons opening us =>
      rw [exists_cons_eq, bracket]
      by_cases hopening : opening.kind = .leftParen
      · simp [hopening, fails_widen]
      · simp [hopening]
  | leftParen => simp [fails_widen]
  | rightParen | op | comma => simp [eq_comm]
  | other label => simp [eq_comm]

theorem fails_unary {total depth : Nat} {t : Token} {ts : List Token} {x : GrammarError} :
    unary total (depth + 1) (t :: ts) = .error x ↔
      (t.op? = some .sub ∧ unary total depth ts = .error x) ∨
        (t.op? ≠ some .sub ∧ primary total (unary total depth) (t :: ts) = .error x) := by
  rw [unary]
  have hsub : accepted? (· == .sub) t = some .sub ↔ t.op? = some .sub := by
    simp [accepted?_eq_some]
  cases hacc : accepted? (· == .sub) t with
  | none =>
    have hne : t.op? ≠ some .sub := fun h => by simp [hsub.mpr h] at hacc
    simp [hne]
  | some op =>
    obtain rfl : op = .sub := by simpa using (accepted?_eq_some.mp hacc).2
    simp [hsub.mp hacc, fails_widen]

/-! ## 2. The right error -/

/-- The error that a token causes in a place where it may not stand; `index` is the token's. -/
def Place.error (p : Place) (t : Token) (index : Nat) : GrammarError :=
  match p.need with
  | .operand =>
    match t.kind with
    | .number => .badNumeral t.text
    | .rightParen => .operandExpected index
    | .op => .strayOperator t.text index
    | _ => .strayToken t index
  | .opening => .bracketExpected .leftParen t
  | .nothing => if p.brackets = [] then .trailing t index else .bracketExpected .rightParen t

/-- `FailsFrom total floor p ts x`: reading on from the place `p`, the tokens `ts` fail with the
error `x`.  The last `floor` tokens that are missing in the end are those of the brackets that were
open before; `total` is the number of tokens of the whole list. -/
inductive FailsFrom (total floor : Nat) (p : Place) (ts : List Token) : GrammarError → Prop where
  /-- The list ends, and more is missing. -/
  | ends {q : Place} : p.run ts = some q → floor < q.missing →
      FailsFrom total floor p ts .unexpectedEnd
  /-- A token may not stand in its place. -/
  | breaks {us vs : List Token} {t : Token} {q : Place} : ts = us ++ t :: vs →
      p.run us = some q → q.step t = none →
      FailsFrom total floor p ts (q.error t (indexBefore total vs))

section

variable {total floor : Nat} {p q : Place} {ts us : List Token} {x : GrammarError}

/-- What fails from a place on fails so from every place that leads there. -/
theorem FailsFrom.behind (h : FailsFrom total floor q ts x) (hrun : p.run us = some q) :
    FailsFrom total floor p (us ++ ts) x := by
  cases h with
  | ends hq hfloor => exact .ends (by rw [run_append_of_run hrun, hq]) hfloor
  | @breaks us' vs t q' hts hq hstep =>
    have hsplit : us ++ ts = (us ++ us') ++ t :: vs := by rw [hts, List.append_assoc]
    exact .breaks hsplit (by rw [run_append_of_run hrun, hq]) hstep

theorem FailsFrom.cons {t : Token} (h : FailsFrom total floor q ts x) (hstep : p.step t = some q) :
    FailsFrom total floor p (t :: ts) x := by
  have hrun : p.run [t] = some q := by simp [hstep]
  exact h.behind hrun

theorem FailsFrom.mono {floor' : Nat} (h : FailsFrom total floor q ts x) (hle : floor' ≤ floor) :
    FailsFrom total floor' q ts x := by
  cases h with
  | ends hq hfloor => exact .ends hq (Nat.lt_of_le_of_lt hle hfloor)
  | breaks hts hq hstep => exact .breaks hts hq hstep

/-- A list that comes to its end where something is missing. -/
theorem FailsFrom.nil (h : floor < p.missing) : FailsFrom total floor p [] .unexpectedEnd :=
  .ends rfl h

/-- The first token already may not stand in its place. -/
theorem FailsFrom.head {t : Token} (h : p.step t = none) :
    FailsFrom total floor p (t :: ts) (p.error t (indexBefore total ts)) := by
  have hsplit : t :: ts = [] ++ t :: ts := rfl
  exact .breaks hsplit rfl h

end

/-- A token behind an operand that is no operator, no comma and no closing parenthesis may not
stand there. -/
theorem step_nothing_eq_none {t : Token} {around : List Bracket}
    (hop : accepted? Op.isKnown t = none)
    (hcomma : t.kind = .comma → around.head? ≠ some .call)
    (hclose : t.kind = .rightParen → around = []) : step ⟨.nothing, around⟩ t = none := by
  cases hkind : t.kind with
  | op =>
    have hunknown : t.op?.any Op.isKnown = false := by
      rw [Option.any_eq_false]
      intro op hop'
      by_contra hknown
      have hacc := accepted?_eq_some.mpr ⟨hop', by simpa using hknown⟩
      simp [hop] at hacc
    simp [step, stepNothing, hkind, hunknown]
  | comma =>
    rcases around with _ | ⟨_ | _, around⟩
    · simp [step, stepNothing, hkind]
    · simp [step, stepNothing, hkind]
    · exact absurd rfl (hcomma hkind)
  | rightParen =>
    obtain rfl := hclose hkind
    simp [step, stepNothing, hkind]
  | number | const | var | func | leftParen => simp [step, stepNothing, hkind]
  | other label => simp [step, stepNothing, hkind]

/-! ## 3. What the readers keep -/

/-- What the reader takes off the front of a list leads to the end of an operand. -/
def Advances (reader : Reader) : Prop :=
  ∀ ts e rest, Gives (reader ts) e rest → ∃ us, ts = us ++ rest ∧
    ∀ around, Place.run ⟨.operand, around⟩ us = some ⟨.nothing, around⟩

/-- On lists of at most `n` tokens the reader fails with the right error. -/
def FailsWell (total : Nat) (reader : Reader) (n : Nat) : Prop :=
  ∀ ts x, reader ts = .error x → ts.length ≤ n →
    ∀ around, FailsFrom total around.length ⟨.operand, around⟩ ts x

theorem Sound.advances {s : Symbol} {reader : Reader} (h : Sound s reader) : Advances reader := by
  intro ts e rest hgives
  obtain ⟨us, hus, hD⟩ := h ts e rest hgives
  exact ⟨us, hus, hD.run⟩

theorem chainFrom_fails {accepts : Op → Bool} {operand : Reader} {total n : Nat}
    (hknown : ∀ op, accepts op = true → op.isKnown = true) (hadv : Advances operand)
    (hop : FailsWell total operand n) {ts : List Token} {left : Expr} {x : GrammarError}
    (h : chainFrom accepts operand left ts = .error x) (hlen : ts.length ≤ n)
    (around : List Bracket) : FailsFrom total around.length ⟨.nothing, around⟩ ts x := by
  obtain ⟨t, us, rfl, op, hacc, hnext⟩ := fails_chainFrom.mp h
  obtain ⟨hop', hacc'⟩ := accepted?_eq_some.mp hacc
  rw [List.length_cons] at hlen
  refine .cons ?_ (step_op hop' (hknown op hacc'))
  rcases hnext with hright | ⟨right, mid, hgives, hnext⟩
  · exact hop us x hright (by omega) around
  · obtain ⟨vs, rfl, hrun⟩ := hadv us right mid hgives
    rw [List.length_append] at hlen
    exact (chainFrom_fails hknown hadv hop hnext (by omega) around).behind (hrun around)
termination_by ts.length
decreasing_by subst_vars; simp only [List.length_cons, List.length_append]; omega

theorem chain_fails {accepts : Op → Bool} {operand : Reader} {total n : Nat}
    (hknown : ∀ op, accepts op = true → op.isKnown = true) (hadv : Advances operand)
    (hop : FailsWell total operand n) : FailsWell total (chain accepts operand) n := by
  intro ts x h hlen around
  rcases fails_chain.mp h with hleft | ⟨left, mid, hgives, hnext⟩
  · exact hop ts x hleft hlen around
  · obtain ⟨us, rfl, hrun⟩ := hadv ts left mid hgives
    rw [List.length_append] at hlen
    exact (chainFrom_fails hknown hadv hop hnext (by omega) around).behind (hrun around)

/-- A chain stops where its last operand stops, in front of a token that it does not accept. -/
theorem chainFrom_stops {accepts : Op → Bool} {operand : Reader} {P : List Token → Prop}
    (hop : ∀ ts e rest, Gives (operand ts) e rest → P rest) {ts : List Token} {left e : Expr}
    {rest : List Token} (h : Gives (chainFrom accepts operand left ts) e rest) (hts : P ts) :
    P rest ∧ Stops accepts rest := by
  rcases gives_chainFrom.mp h with ⟨hstop, -, rfl⟩ |
    ⟨t, us, rfl, op, hacc, right, mid, hright, hnext⟩
  · exact ⟨hts, hstop⟩
  · have hlt : mid.length < us.length := hright.1
    exact chainFrom_stops hop hnext (hop us right mid hright)
termination_by ts.length
decreasing_by subst_vars; simp only [List.length_cons]; omega

theorem chain_stops {accepts : Op → Bool} {operand : Reader} {P : List Token → Prop}
    (hop : ∀ ts e rest, Gives (operand ts) e rest → P rest) {ts : List Token} {e : Expr}
    {rest : List Token} (h : Gives (chain accepts operand ts) e rest) :
    P rest ∧ Stops accepts rest := by
  obtain ⟨left, mid, hleft, hnext⟩ := gives_chain.mp h
  exact chainFrom_stops hop hnext (hop ts left mid hleft)

theorem power_stops {operand : Reader} {ts : List Token} {e : Expr} {rest : List Token}
    (h : Gives (power operand ts) e rest) : Stops (· == .pow) rest := by
  obtain ⟨base, mid, hbase, ⟨hstop, -, rfl⟩ | ⟨t, us, rfl, -, exponent, hexp, -⟩⟩ :=
    gives_power.mp h
  · exact hstop
  · have hlt : (t :: us).length < ts.length := hbase.1
    exact power_stops hexp
termination_by ts.length
decreasing_by simp only [List.length_cons] at hlt; omega

/-- **A term stops in front of a token that is no operator.** -/
theorem term_stops {operand : Reader} {ts : List Token} {e : Expr} {rest : List Token}
    (h : Gives (term operand ts) e rest) : Stops Op.isKnown rest := by
  have hfactor : ∀ ts e rest, Gives (factor operand ts) e rest →
      Stops (· == .pow) rest ∧ Stops isMultiplicative rest := fun _ _ _ h =>
    chain_stops (fun _ _ _ h => power_stops h) h
  obtain ⟨⟨hpow, hmul⟩, hadd⟩ := chain_stops hfactor h
  cases rest with
  | nil => trivial
  | cons t rest =>
    rw [Stops, Option.eq_none_iff_forall_ne_some] at hpow hmul hadd ⊢
    intro op hacc
    obtain ⟨hop, hknown⟩ := accepted?_eq_some.mp hacc
    cases op with
    | add | sub => exact hadd _ (accepted?_eq_some.mpr ⟨hop, rfl⟩)
    | mul | div => exact hmul _ (accepted?_eq_some.mpr ⟨hop, rfl⟩)
    | pow => exact hpow _ (accepted?_eq_some.mpr ⟨hop, rfl⟩)
    | other s => cases hknown

/-! ## 4. The readers -/

section

variable {total n : Nat} {operand : Reader}

theorem power_fails (hadv : Advances operand) (hop : FailsWell total operand n) :
    FailsWell total (power operand) n := by
  intro ts x h hlen around
  rcases fails_power.mp h with hbase | ⟨base, mid, hbase, t, us, rfl, hpow, hexp⟩
  · exact hop ts x hbase hlen around
  · obtain ⟨vs, rfl, hrun⟩ := hadv ts base (t :: us) hbase
    rw [List.length_append, List.length_cons] at hlen
    exact ((power_fails hadv hop us x hexp (by omega) around).cons (step_op hpow rfl)).behind
      (hrun around)
termination_by ts => ts.length
decreasing_by subst_vars; simp only [List.length_cons, List.length_append]; omega

theorem factor_fails (hsound : Sound .unary operand) (hop : FailsWell total operand n) :
    FailsWell total (factor operand) n :=
  chain_fails (fun _ => isKnown_of_isMultiplicative) (power_sound hsound).advances
    (power_fails hsound.advances hop)

theorem term_fails (hsound : Sound .unary operand) (hop : FailsWell total operand n) :
    FailsWell total (term operand) n :=
  chain_fails (fun _ => isKnown_of_isAdditive) (factor_sound hsound).advances
    (factor_fails hsound hop)

/-- What is read as arguments leads to the end of the last of them, in front of a token that
neither an operator nor a comma could be. -/
theorem arguments_advance (hsound : Sound .unary operand) {ts : List Token} {es : List Expr}
    {rest : List Token} (h : Gives (arguments operand ts) es rest) (around : List Bracket) :
    (∃ us, ts = us ++ rest ∧ Place.run ⟨.operand, .call :: around⟩ us =
      some ⟨.nothing, .call :: around⟩) ∧ Stops Op.isKnown rest ∧ NoComma rest := by
  obtain ⟨first, mid, hfirst, hnext⟩ := gives_arguments.mp h
  obtain ⟨us, rfl, hrun⟩ := (term_sound hsound).advances ts first mid hfirst
  rcases hnext with ⟨hcomma, -, rfl⟩ | ⟨t, vs, rfl, hcomma, more, hmore, -⟩
  · exact ⟨⟨us, rfl, hrun _⟩, term_stops hfirst, hcomma⟩
  · obtain ⟨⟨ws, rfl, hrun'⟩, hstop⟩ := arguments_advance hsound hmore around
    refine ⟨⟨us ++ t :: ws, by simp, ?_⟩, hstop⟩
    rw [run_append_of_run (hrun _), run_cons, step_comma hcomma, Option.bind_some, hrun']
termination_by ts.length
decreasing_by subst_vars; simp only [List.length_cons, List.length_append]; omega

theorem arguments_fail (hsound : Sound .unary operand) (hop : FailsWell total operand n)
    {ts : List Token} {x : GrammarError} (h : arguments operand ts = .error x)
    (hlen : ts.length ≤ n) (around : List Bracket) :
    FailsFrom total (around.length + 1) ⟨.operand, .call :: around⟩ ts x := by
  rcases fails_arguments.mp h with hfirst | ⟨first, mid, hfirst, t, us, rfl, hcomma, hmore⟩
  · exact term_fails hsound hop ts x hfirst hlen (.call :: around)
  · obtain ⟨vs, rfl, hrun⟩ := (term_sound hsound).advances ts first (t :: us) hfirst
    rw [List.length_append, List.length_cons] at hlen
    exact ((arguments_fail hsound hop hmore (by omega) around).cons (step_comma hcomma)).behind
      (hrun _)
termination_by ts.length
decreasing_by subst_vars; simp only [List.length_cons, List.length_append]; omega

/-- What is read up to a closing parenthesis that is missing. -/
theorem closing_fails {α : Type} {b : Bracket} {around : List Bracket} {ts : List Token}
    {body : Reading α ts} {x : GrammarError} (h : closing body = .error x)
    (hbody : body = .error x →
      FailsFrom total (around.length + 1) ⟨.operand, b :: around⟩ ts x)
    (hadv : ∀ a rest, Gives body a rest → (∃ us, ts = us ++ rest ∧
      Place.run ⟨.operand, b :: around⟩ us = some ⟨.nothing, b :: around⟩) ∧
        Stops Op.isKnown rest ∧ (b = .call → NoComma rest)) :
    FailsFrom total around.length ⟨.operand, b :: around⟩ ts x := by
  rcases fails_closing.mp h with hx | ⟨a, mid, hgives, hx⟩
  · exact (hbody hx).mono (Nat.le_succ _)
  · obtain ⟨⟨us, rfl, hrun⟩, hstop, hcomma⟩ := hadv a mid hgives
    rcases fails_bracket.mp hx with ⟨rfl, rfl⟩ | ⟨t, vs, rfl, hkind, rfl⟩
    · exact (FailsFrom.nil (by simp [missing_nothing])).behind hrun
    · have hstep : step ⟨.nothing, b :: around⟩ t = none :=
        step_nothing_eq_none hstop
          (fun hc hb => hcomma (by simpa using hb) hc) (fun hc => absurd hc hkind)
      have hhead : FailsFrom total around.length ⟨.nothing, b :: around⟩ (t :: vs)
          (Place.error ⟨.nothing, b :: around⟩ t (indexBefore total vs)) := .head hstep
      have herror : Place.error ⟨.nothing, b :: around⟩ t (indexBefore total vs) =
          .bracketExpected .rightParen t := by simp [Place.error]
      exact (herror ▸ hhead).behind hrun

theorem primary_fails (hsound : Sound .unary operand) (hop : FailsWell total operand n)
    {t : Token} {ts : List Token} {x : GrammarError}
    (h : primary total operand (t :: ts) = .error x) (hsign : t.op? ≠ some .sub)
    (hlen : ts.length ≤ n) (around : List Bracket) :
    FailsFrom total around.length ⟨.operand, around⟩ (t :: ts) x := by
  have hhead : step ⟨.operand, around⟩ t = none → FailsFrom total around.length
      ⟨.operand, around⟩ (t :: ts) (Place.error ⟨.operand, around⟩ t (indexBefore total ts)) :=
    FailsFrom.head
  rcases fails_primary.mp h with ⟨hkind, hread, rfl⟩ | ⟨hkind, hcall⟩ | ⟨hkind, hgroup⟩ |
    ⟨hkind, rfl⟩ | ⟨hkind, rfl⟩ | ⟨hkind, rfl⟩
  · simpa [Place.error, hkind] using hhead (by simp [step, stepOperand, hkind, hread])
  · refine .cons ?_ (step_func hkind)
    rcases hcall with hopening | ⟨opening, us, rfl, hopening, hclosing⟩
    · rcases fails_bracket.mp hopening with ⟨rfl, rfl⟩ | ⟨u, us, rfl, hne, rfl⟩
      · exact .nil (by rw [missing_opening]; omega)
      · exact .head (p := ⟨.opening, around⟩) (by simp [step, hne])
    · rw [List.length_cons] at hlen
      refine .cons ?_ (step_opening hopening)
      exact closing_fails hclosing
        (fun hx => arguments_fail hsound hop hx (by omega) around)
        (fun es rest hgives => (arguments_advance hsound hgives around).imp_right
          fun hstop => ⟨hstop.1, fun _ => hstop.2⟩)
  · refine .cons ?_ (step_group hkind)
    refine closing_fails hgroup
      (fun hx => term_fails hsound hop ts x hx hlen (.group :: around)) ?_
    intro e rest hgives
    obtain ⟨us, hus, hrun⟩ := (term_sound hsound).advances ts e rest hgives
    exact ⟨⟨us, hus, hrun _⟩, term_stops hgives, by simp⟩
  · simpa [Place.error, hkind] using hhead (by simp [step, stepOperand, hkind])
  · simpa [Place.error, hkind] using hhead (by simp [step, stepOperand, hkind, hsign])
  · rcases hkind with hkind | ⟨label, hkind⟩
    · simpa [Place.error, hkind] using hhead (by simp [step, stepOperand, hkind])
    · simpa [Place.error, hkind] using hhead (by simp [step, stepOperand, hkind])

end

/-- **With `n` levels allowed, `n` tokens fail with the right error**, and never by their depth. -/
theorem unary_fails (total n : Nat) : FailsWell total (unary total n) n := by
  induction n with
  | zero =>
    intro ts x h hlen around
    obtain rfl := List.eq_nil_of_length_eq_zero (Nat.le_zero.mp hlen)
    obtain rfl : GrammarError.unexpectedEnd = x := by simpa [unary] using h
    exact .nil (by rw [missing_operand]; omega)
  | succ n ih =>
    intro ts x h hlen around
    cases ts with
    | nil =>
      obtain rfl : GrammarError.unexpectedEnd = x := by simpa [unary] using h
      exact .nil (by rw [missing_operand]; omega)
    | cons t ts =>
      have hlen' : ts.length ≤ n := by simpa using hlen
      rcases fails_unary.mp h with ⟨hsub, hx⟩ | ⟨hne, hx⟩
      · exact (ih ts x hx hlen' around).cons (step_sign hsub)
      · exact primary_fails (unary_sound total n) ih hx hne hlen' around

/-! ## 5. Whole lists -/

theorem fails_ofTokens {ts : List Token} {x : GrammarError} :
    Expr.ofTokens none ts = .error x ↔
      readTerm none ts = .error x ∨ ∃ e t rest, Gives (readTerm none ts) e (t :: rest) ∧
        x = .trailing t (indexBefore ts.length rest) := by
  rw [Expr.ofTokens]
  rcases readTerm none ts with y | ⟨e, rest, lt⟩
  · simp
  · cases rest with
    | nil => simp
    | cons t rest =>
      simp only [Except.error.injEq, reduceCtorEq, false_or, gives_ok]
      constructor
      · rintro rfl
        exact ⟨e, t, rest, ⟨rfl, rfl⟩, rfl⟩
      · rintro ⟨_, _, _, ⟨rfl, ⟨⟩⟩, rfl⟩
        rfl

/-- **A list fails with the right error.** -/
theorem ofTokens_fails {ts : List Token} {x : GrammarError}
    (h : Expr.ofTokens none ts = .error x) : FailsFrom ts.length 0 .start ts x := by
  have hsound : Sound .unary (unary ts.length ts.length) := unary_sound _ _
  rcases fails_ofTokens.mp h with hx | ⟨e, t, rest, hgives, rfl⟩
  · exact term_fails hsound (unary_fails _ _) ts x hx (Nat.le_refl _) []
  · have hstop : accepted? Op.isKnown t = none := term_stops hgives
    obtain ⟨us, hus, hrun⟩ := (term_sound hsound).advances ts e (t :: rest) hgives
    have hstep : step finish t = none :=
      step_nothing_eq_none hstop (by simp) (fun _ => rfl)
    exact .breaks (q := finish) hus (hrun []) hstep

end Grammar

end Fluxion
