/-
# Reading is deriving

The readers of `Grammar/Reader.lean` find exactly the derivations of `Derivation.lean`.

* **Soundness** (`Sound`): what a reader takes off the front of a list is derived by its symbol.
* **Completeness** (`Complete`): if a symbol derives the front of a list, and the token after it
  is not one that the symbol could go on with (`Symbol.continues`), its reader takes just that
  front.

Both are proved for each reader from the same fact about the reader of its operands, and for
`unary`, which closes the circle, by induction on the levels that are allowed.  A derivation of
`n` tokens needs at most `n` levels, so a list of `n` tokens is read with `n` levels as if there
were no limit.
-/
import Fluxion.Proofs.Grammar.Derivation
import Fluxion.Proofs.Token.Lexeme

namespace Fluxion

namespace Grammar

/-! ## 1. What a reading gives -/

/-- The reading succeeds with `a` and leaves `rest`. -/
def Gives {α : Type} {P : List Token → Prop}
    (reading : Except GrammarError (α × { rest : List Token // P rest })) (a : α)
    (rest : List Token) : Prop :=
  ∃ h, reading = .ok (a, ⟨rest, h⟩)

@[simp] theorem gives_error {α : Type} {P : List Token → Prop} {x : GrammarError} {a : α}
    {rest : List Token} :
    ¬ Gives (.error x : Except GrammarError (α × { rest : List Token // P rest })) a rest := by
  rintro ⟨_, h⟩
  cases h

@[simp] theorem gives_ok {α : Type} {P : List Token → Prop} {a b : α}
    {r : { rest : List Token // P rest }} {rest : List Token} :
    Gives (.ok (b, r)) a rest ↔ a = b ∧ rest = r.1 := by
  constructor
  · rintro ⟨_, h⟩
    simp only [Except.ok.injEq, Prod.mk.injEq] at h
    exact ⟨h.1.symm, by rw [h.2]⟩
  · rintro ⟨rfl, rfl⟩
    exact ⟨r.2, rfl⟩

/-- What follows a reading that succeeded follows the one thing that it gives. -/
theorem exists_gives_ok {α : Type} {P : List Token → Prop} {a : α}
    {r : { rest : List Token // P rest }} {Q : α → List Token → Prop} :
    (∃ b rest, Gives (.ok (a, r)) b rest ∧ Q b rest) ↔ Q a r.1 := by
  constructor
  · rintro ⟨b, rest, h, hQ⟩
    obtain ⟨rfl, rfl⟩ := gives_ok.mp h
    exact hQ
  · intro hQ
    exact ⟨a, r.1, gives_ok.mpr ⟨rfl, rfl⟩, hQ⟩

/-- A list that is not empty has one head and one tail. -/
theorem exists_cons_eq {t : Token} {us : List Token} {Q : Token → List Token → Prop} :
    (∃ t' us', t :: us = t' :: us' ∧ Q t' us') ↔ Q t us := by
  constructor
  · rintro ⟨t', us', heq, hQ⟩
    obtain ⟨rfl, rfl⟩ := List.cons.inj heq
    exact hQ
  · intro hQ
    exact ⟨t, us, rfl, hQ⟩

theorem gives_widen {α β : Type} {ts us : List Token} {f : α → β} {h : ts.length ≤ us.length}
    {reading : Reading α ts} {b : β} {rest : List Token} :
    Gives (Reading.widen f h reading) b rest ↔ ∃ a, Gives reading a rest ∧ b = f a := by
  rcases reading with x | ⟨a, rest', lt⟩
  · simp [Reading.widen]
  · simp only [Reading.widen, gives_ok]
    constructor
    · rintro ⟨rfl, rfl⟩
      exact ⟨a, ⟨rfl, rfl⟩, rfl⟩
    · rintro ⟨_, ⟨rfl, rfl⟩, rfl⟩
      exact ⟨rfl, rfl⟩

/-! ## 2. One reader at a time

What each reader gives, in terms of what its parts give. -/

theorem accepted?_eq_some {accepts : Op → Bool} {t : Token} {op : Op} :
    accepted? accepts t = some op ↔ t.op? = some op ∧ accepts op = true := by
  simp [accepted?, Option.filter_eq_some_iff]

/-- The list does not begin with an accepted operator. -/
def Stops (accepts : Op → Bool) : List Token → Prop
  | [] => True
  | t :: _ => accepted? accepts t = none

theorem gives_chainFrom {accepts : Op → Bool} {operand : Reader} {left e : Expr}
    {ts rest : List Token} :
    Gives (chainFrom accepts operand left ts) e rest ↔
      (Stops accepts ts ∧ e = left ∧ rest = ts) ∨
        ∃ t us, ts = t :: us ∧ ∃ op, accepted? accepts t = some op ∧
          ∃ right mid, Gives (operand us) right mid ∧
            Gives (chainFrom accepts operand (.bin op left right) mid) e rest := by
  cases ts with
  | nil => simp [chainFrom, Stops]
  | cons t us =>
    rw [chainFrom, exists_cons_eq]
    cases hacc : accepted? accepts t with
    | none => simp [Stops, hacc]
    | some op =>
      simp only [Stops, hacc, reduceCtorEq, false_and, false_or, Option.some.injEq,
        exists_eq_left']
      rcases operand us with x | ⟨right, mid, lt⟩
      · simp
      · simp only [exists_gives_ok]
        rcases chainFrom accepts operand (.bin op left right) mid with x | ⟨e', last, le⟩
        · simp
        · simp

theorem gives_chain {accepts : Op → Bool} {operand : Reader} {e : Expr} {ts rest : List Token} :
    Gives (chain accepts operand ts) e rest ↔
      ∃ left mid, Gives (operand ts) left mid ∧
        Gives (chainFrom accepts operand left mid) e rest := by
  rw [chain]
  rcases operand ts with x | ⟨left, mid, lt⟩
  · simp
  · simp only [exists_gives_ok]
    rcases chainFrom accepts operand left mid with x | ⟨e', last, le⟩
    · simp
    · simp

/-- What a power may go on with after its base. -/
theorem gives_power {operand : Reader} {e : Expr} {ts rest : List Token} :
    Gives (power operand ts) e rest ↔
      ∃ base mid, Gives (operand ts) base mid ∧
        ((Stops (· == .pow) mid ∧ e = base ∧ rest = mid) ∨
          ∃ t us, mid = t :: us ∧ t.op? = some .pow ∧
            ∃ exponent, Gives (power operand us) exponent rest ∧ e = .bin .pow base exponent) := by
  rw [power]
  rcases operand ts with x | ⟨base, mid, lt⟩
  · simp
  · simp only [exists_gives_ok]
    cases mid with
    | nil => simp [Stops]
    | cons t us =>
      rw [exists_cons_eq]
      have hpow : accepted? (· == .pow) t = some .pow ↔ t.op? = some .pow := by
        simp [accepted?_eq_some]
      cases hacc : accepted? (· == .pow) t with
      | none =>
        have hne : t.op? ≠ some .pow := fun h => by simp [hpow.mpr h] at hacc
        simp [Stops, hacc, hne]
      | some op =>
        obtain rfl : op = .pow := by simpa using (accepted?_eq_some.mp hacc).2
        simp [Stops, hacc, hpow.mp hacc, gives_widen]

theorem gives_bracket {kind : Kind} {ts rest : List Token} {u : Unit} :
    Gives (bracket kind ts) u rest ↔ ∃ t, ts = t :: rest ∧ t.kind = kind := by
  cases ts with
  | nil => simp [bracket]
  | cons t us =>
    rw [bracket]
    by_cases hkind : t.kind = kind
    · simp only [hkind, if_true, gives_ok, true_and, List.cons.injEq]
      constructor
      · rintro rfl
        exact ⟨t, ⟨rfl, rfl⟩, hkind⟩
      · rintro ⟨_, ⟨-, rfl⟩, -⟩
        rfl
    · simp [hkind]

theorem gives_closing {α : Type} {ts rest : List Token} {body : Reading α ts} {a : α} :
    Gives (closing body) a rest ↔ ∃ t, Gives body a (t :: rest) ∧ t.kind = .rightParen := by
  rcases body with x | ⟨b, mid, lt⟩
  · simp [closing]
  · simp only [closing, gives_widen, gives_bracket, gives_ok]
    constructor
    · rintro ⟨_, ⟨t, rfl, ht⟩, rfl⟩
      exact ⟨t, ⟨rfl, rfl⟩, ht⟩
    · rintro ⟨t, ⟨rfl, rfl⟩, ht⟩
      exact ⟨(), ⟨t, rfl, ht⟩, rfl⟩

/-- The list does not begin with a comma. -/
def NoComma : List Token → Prop
  | [] => True
  | t :: _ => t.kind ≠ .comma

theorem gives_arguments {operand : Reader} {es : List Expr} {ts rest : List Token} :
    Gives (arguments operand ts) es rest ↔
      ∃ first mid, Gives (term operand ts) first mid ∧
        ((NoComma mid ∧ es = [first] ∧ rest = mid) ∨
          ∃ t us, mid = t :: us ∧ t.kind = .comma ∧
            ∃ more, Gives (arguments operand us) more rest ∧ es = first :: more) := by
  rw [arguments]
  rcases term operand ts with x | ⟨first, mid, lt⟩
  · simp
  · simp only [exists_gives_ok]
    cases mid with
    | nil => simp [NoComma]
    | cons t us =>
      rw [exists_cons_eq]
      by_cases hcomma : t.kind = .comma
      · simp [NoComma, hcomma, gives_widen]
      · simp [NoComma, hcomma]

/-- What a primary may be, by the kind of its first token. -/
theorem gives_primary {total : Nat} {operand : Reader} {e : Expr} {t : Token}
    {ts rest : List Token} :
    Gives (primary total operand (t :: ts)) e rest ↔
      (t.kind = .number ∧ rest = ts ∧ ∃ v, Numeral.readFloat t.text = some v ∧ e = .num v) ∨
        (t.kind = .const ∧ rest = ts ∧ e = .const t.text) ∨
        (t.kind = .var ∧ rest = ts ∧ e = .var t.text) ∨
        (t.kind = .func ∧ ∃ opening us, ts = opening :: us ∧ opening.kind = .leftParen ∧
          ∃ es closing, Gives (arguments operand us) es (closing :: rest) ∧
            closing.kind = .rightParen ∧ e = .func t.text es) ∨
        (t.kind = .leftParen ∧ ∃ closing, Gives (term operand ts) e (closing :: rest) ∧
          closing.kind = .rightParen) := by
  rw [primary]
  cases hkind : t.kind with
  | number =>
    cases hread : Numeral.readFloat t.text with
    | none => simp [number, hread, Except.map]
    | some v => simp [number, hread, Except.map, and_comm]
  | const | var => simp [and_comm]
  | func =>
    simp only [reduceCtorEq, false_and, false_or, or_false, true_and]
    cases ts with
    | nil => simp [bracket]
    | cons opening us =>
      rw [exists_cons_eq, bracket]
      by_cases hopening : opening.kind = .leftParen
      · simp [hopening, gives_widen, gives_closing]
        grind
      · simp [hopening]
  | leftParen => simp [gives_widen, gives_closing]
  | rightParen | op | comma => simp
  | other label => simp

theorem gives_unary {total depth : Nat} {e : Expr} {t : Token} {ts rest : List Token} :
    Gives (unary total (depth + 1) (t :: ts)) e rest ↔
      (t.op? = some .sub ∧ ∃ e', Gives (unary total depth ts) e' rest ∧ e = .neg e') ∨
        (t.op? ≠ some .sub ∧ Gives (primary total (unary total depth) (t :: ts)) e rest) := by
  rw [unary]
  have hsub : accepted? (· == .sub) t = some .sub ↔ t.op? = some .sub := by
    simp [accepted?_eq_some]
  cases hacc : accepted? (· == .sub) t with
  | none =>
    have hne : t.op? ≠ some .sub := fun h => by simp [hsub.mpr h] at hacc
    simp [hne]
  | some op =>
    obtain rfl : op = .sub := by simpa using (accepted?_eq_some.mp hacc).2
    simp [hsub.mp hacc, gives_widen]

/-! ## 3. Soundness -/

/-- What the reader takes off the front of a list is derived by the symbol. -/
def Sound (s : Symbol) (reader : Reader) : Prop :=
  ∀ (ts : List Token) (e : Expr) (rest : List Token), Gives (reader ts) e rest →
    ∃ us, ts = us ++ rest ∧ Derives s us e

/-- The rest of a chain, after the part of it that `left` stands for. -/
theorem chainFrom_sound {accepts : Op → Bool} {operand : Reader}
    {D : List Token → Expr → Prop}
    (hop : ∀ ts e rest, Gives (operand ts) e rest → ∃ us, ts = us ++ rest ∧ D us e)
    {ts front : List Token} {left e : Expr} {rest : List Token} (hleft : Chain accepts D front left)
    (h : Gives (chainFrom accepts operand left ts) e rest) :
    ∃ us, ts = us ++ rest ∧ Chain accepts D (front ++ us) e := by
  rcases gives_chainFrom.mp h with ⟨-, rfl, rfl⟩ |
    ⟨t, us, rfl, op, hacc, right, mid, hright, hnext⟩
  · exact ⟨[], rfl, by simpa using hleft⟩
  · obtain ⟨hop', hacc'⟩ := accepted?_eq_some.mp hacc
    obtain ⟨vs, rfl, hD⟩ := hop us right mid hright
    have hlonger : Chain accepts D (front ++ t :: vs) (.bin op left right) :=
      .more hleft hop' hacc' hD
    obtain ⟨ws, rfl, hchain⟩ := chainFrom_sound hop hlonger hnext
    exact ⟨t :: (vs ++ ws), by simp, by simpa using hchain⟩
termination_by ts.length
decreasing_by subst_vars; simp only [List.length_cons, List.length_append]; omega

/-- A chain, given the soundness of its operands. -/
theorem chain_sound {accepts : Op → Bool} {operand : Reader} {D : List Token → Expr → Prop}
    (hop : ∀ ts e rest, Gives (operand ts) e rest → ∃ us, ts = us ++ rest ∧ D us e)
    {ts : List Token} {e : Expr} {rest : List Token} (h : Gives (chain accepts operand ts) e rest) :
    ∃ us, ts = us ++ rest ∧ Chain accepts D us e := by
  obtain ⟨left, mid, hleft, hnext⟩ := gives_chain.mp h
  obtain ⟨us, rfl, hD⟩ := hop ts left mid hleft
  obtain ⟨vs, rfl, hchain⟩ := chainFrom_sound hop (.one hD) hnext
  exact ⟨us ++ vs, by simp, hchain⟩

theorem power_sound {operand : Reader} (hop : Sound .unary operand) :
    Sound .power (power operand) := by
  intro ts e rest h
  obtain ⟨base, mid, hbase, hnext⟩ := gives_power.mp h
  obtain ⟨us, rfl, hD⟩ := hop ts base mid hbase
  rcases hnext with ⟨-, rfl, rfl⟩ | ⟨t, vs, rfl, hpow, exponent, hexp, rfl⟩
  · exact ⟨us, rfl, .ofUnary hD⟩
  · obtain ⟨ws, rfl, hE⟩ := power_sound hop vs exponent rest hexp
    exact ⟨us ++ t :: ws, by simp, .raise hD hpow hE⟩
termination_by ts => ts.length
decreasing_by subst_vars; simp only [List.length_cons, List.length_append]; omega

theorem factor_sound {operand : Reader} (hop : Sound .unary operand) :
    Sound .factor (factor operand) := by
  intro ts e rest h
  obtain ⟨us, rfl, hchain⟩ := chain_sound (power_sound hop) h
  exact ⟨us, rfl, derives_factor_iff.mpr hchain⟩

theorem term_sound {operand : Reader} (hop : Sound .unary operand) :
    Sound .term (term operand) := by
  intro ts e rest h
  obtain ⟨us, rfl, hchain⟩ := chain_sound (factor_sound hop) h
  exact ⟨us, rfl, derives_term_iff.mpr hchain⟩

/-- The arguments of a call are terms with commas between them. -/
theorem arguments_sound {operand : Reader} (hop : Sound .unary operand) {ts : List Token}
    {es : List Expr} {rest : List Token} (h : Gives (arguments operand ts) es rest) :
    ∃ us e more, ts = us ++ Further.all more ++ rest ∧ es = e :: more.map (·.expr) ∧
      Derives .term us e ∧ (∀ m ∈ more, m.comma.kind = .comma) ∧
      ∀ m ∈ more, Derives .term m.tokens m.expr := by
  obtain ⟨first, mid, hfirst, hnext⟩ := gives_arguments.mp h
  obtain ⟨us, rfl, hD⟩ := term_sound hop ts first mid hfirst
  rcases hnext with ⟨-, rfl, rfl⟩ | ⟨t, vs, rfl, hcomma, es, hmore, rfl⟩
  · exact ⟨us, first, [], by simp [Further.all], rfl, hD, by simp, by simp⟩
  · obtain ⟨ws, e, more, rfl, rfl, hE, hcommas, hall⟩ := arguments_sound hop hmore
    refine ⟨us, first, ⟨t, ws, e⟩ :: more, by simp [Further.all], by simp, hD, ?_, ?_⟩
    · intro m hm
      rcases List.mem_cons.mp hm with rfl | hm
      · exact hcomma
      · exact hcommas m hm
    · intro m hm
      rcases List.mem_cons.mp hm with rfl | hm
      · exact hE
      · exact hall m hm
termination_by ts.length
decreasing_by subst_vars; simp only [List.length_cons, List.length_append]; omega

theorem primary_sound {total : Nat} {operand : Reader} (hop : Sound .unary operand) :
    Sound .primary (primary total operand) := by
  intro ts e rest h
  rcases ts with _ | ⟨⟨kind, text⟩, ts⟩
  · simp [primary] at h
  · rcases gives_primary.mp h with ⟨rfl, rfl, v, hread, rfl⟩ | ⟨rfl, rfl, rfl⟩ | ⟨rfl, rfl, rfl⟩ |
      ⟨rfl, opening, us, rfl, hopening, es, closing, hargs, hclosing, rfl⟩ |
      ⟨hopening, closing, hterm, hclosing⟩
    · exact ⟨_, rfl, .number hread⟩
    · exact ⟨_, rfl, .const text⟩
    · exact ⟨_, rfl, .var text⟩
    · obtain ⟨us, e, more, rfl, rfl, hD, hcommas, hall⟩ := arguments_sound hop hargs
      exact ⟨_, by simp, .call hopening hclosing hD hcommas hall⟩
    · obtain ⟨us, rfl, hD⟩ := term_sound hop _ _ _ hterm
      exact ⟨_, by simp, .group hopening hclosing hD⟩

theorem unary_sound (total depth : Nat) : Sound .unary (unary total depth) := by
  induction depth with
  | zero =>
    intro ts e rest h
    cases ts <;> simp [unary] at h
  | succ depth ih =>
    intro ts e rest h
    cases ts with
    | nil => simp [unary] at h
    | cons t ts =>
      rcases gives_unary.mp h with ⟨hsub, e', hsigned, rfl⟩ | ⟨-, hprimary⟩
      · obtain ⟨us, rfl, hD⟩ := ih ts e' rest hsigned
        exact ⟨t :: us, rfl, .sign hsub hD⟩
      · obtain ⟨us, hus, hD⟩ := primary_sound ih (t :: ts) e rest hprimary
        exact ⟨us, hus, .ofPrimary hD⟩

/-! ## 4. Completeness -/

/-- The operators that a symbol goes on with after it has derived something. -/
def Symbol.continues : Symbol → Op → Bool
  | .term => fun op => isAdditive op || isMultiplicative op || op == .pow
  | .factor => fun op => isMultiplicative op || op == .pow
  | .power => fun op => op == .pow
  | .unary | .primary => fun _ => false

/-- If the symbol derives at most `n` tokens at the front of a list and cannot go on with the
rest, the reader takes just those tokens. -/
def Complete (s : Symbol) (reader : Reader) (n : Nat) : Prop :=
  ∀ (us : List Token) (e : Expr), Derives s us e → us.length ≤ n →
    ∀ rest, Stops s.continues rest → Gives (reader (us ++ rest)) e rest

/-- A reader stops where one with more operators to go on with stops. -/
theorem Stops.mono {accepts accepts' : Op → Bool}
    (hsub : ∀ op, accepts' op = true → accepts op = true) {ts : List Token}
    (h : Stops accepts ts) : Stops accepts' ts := by
  cases ts with
  | nil => trivial
  | cons t ts =>
    rw [Stops, Option.eq_none_iff_forall_ne_some] at h ⊢
    intro op hacc
    obtain ⟨hop, hacc'⟩ := accepted?_eq_some.mp hacc
    exact h op (accepted?_eq_some.mpr ⟨hop, hsub op hacc'⟩)

/-- Every reader stops at a token that is not an operator. -/
theorem stops_of_kind {accepts : Op → Bool} {t : Token} {ts : List Token} (h : t.kind ≠ .op) :
    Stops accepts (t :: ts) := by
  simp [Stops, accepted?, Token.op?, h]

/-- A reader stops at an operator that it does not accept. -/
theorem stops_of_op {accepts : Op → Bool} {t : Token} {ts : List Token} {op : Op}
    (hop : t.op? = some op) (h : accepts op = false) : Stops accepts (t :: ts) := by
  simp [Stops, accepted?, hop, Option.filter, h]

/-- Reading a chain up to a place inside it leaves the rest of the reading to be done from there.
The operands read alone wherever `P` holds of what follows them, as it does of an operator of the
chain. -/
theorem chain_reaches {accepts : Op → Bool} {operand : Reader} {D : List Token → Expr → Prop}
    {P : List Token → Prop} {n : Nat}
    (hop : ∀ us e, D us e → us.length ≤ n → ∀ rest, P rest → Gives (operand (us ++ rest)) e rest)
    (hP : ∀ t us op, t.op? = some op → accepts op = true → P (t :: us))
    {us : List Token} {left : Expr} (h : Chain accepts D us left) (hlen : us.length ≤ n) :
    ∀ {mid rest e}, P mid → Gives (chainFrom accepts operand left mid) e rest →
      Gives (chain accepts operand (us ++ mid)) e rest := by
  induction h with
  | one hD =>
    intro mid rest e hmid hnext
    exact gives_chain.mpr ⟨_, _, hop _ _ hD hlen mid hmid, hnext⟩
  | @more ts us t op l r hl hop' hacc hr ih =>
    intro mid rest e hmid hnext
    rw [List.length_append, List.length_cons] at hlen
    rw [List.append_assoc, List.cons_append]
    refine ih (by omega) (hP t _ op hop' hacc) (gives_chainFrom.mpr (Or.inr ?_))
    exact ⟨t, _, rfl, op, accepted?_eq_some.mpr ⟨hop', hacc⟩, r, mid,
      hop us r hr (by omega) mid hmid, hnext⟩

/-- A chain, given the completeness of its operands. -/
theorem chain_complete {accepts : Op → Bool} {operand : Reader} {D : List Token → Expr → Prop}
    {P : List Token → Prop} {n : Nat}
    (hop : ∀ us e, D us e → us.length ≤ n → ∀ rest, P rest → Gives (operand (us ++ rest)) e rest)
    (hP : ∀ t us op, t.op? = some op → accepts op = true → P (t :: us))
    {us : List Token} {e : Expr} (h : Chain accepts D us e) (hlen : us.length ≤ n)
    {rest : List Token} (hrest : P rest) (hstop : Stops accepts rest) :
    Gives (chain accepts operand (us ++ rest)) e rest :=
  chain_reaches hop hP h hlen hrest (gives_chainFrom.mpr (Or.inl ⟨hstop, rfl, rfl⟩))

theorem power_complete {operand : Reader} {n : Nat} (hop : Complete .unary operand n) :
    Complete .power (power operand) n := by
  intro us e h
  generalize hs : Symbol.power = s at h
  induction h with
  | ofUnary hunary =>
    intro hlen rest hstop
    have hbase := hop _ _ hunary hlen rest (hstop.mono (by simp [Symbol.continues]))
    exact gives_power.mpr ⟨_, rest, hbase, Or.inl ⟨hstop, rfl, rfl⟩⟩
  | @raise ts us t l r hl hpow hr _ ihr =>
    intro hlen rest hstop
    rw [List.length_append, List.length_cons] at hlen
    have hbase := hop ts l hl (by omega) (t :: (us ++ rest))
      (stops_of_op hpow (by simp [Symbol.continues]))
    have hexp := ihr hs (by omega) rest hstop
    rw [List.append_assoc, List.cons_append]
    exact gives_power.mpr ⟨l, _, hbase, Or.inr ⟨t, _, rfl, hpow, r, hexp, rfl⟩⟩
  | ofFactor | sum | ofPower | product | ofPrimary | sign | number | const | var | call
  | group => cases hs

theorem factor_complete {operand : Reader} {n : Nat} (hop : Complete .unary operand n) :
    Complete .factor (factor operand) n := by
  intro us e h hlen rest hstop
  refine chain_complete (power_complete hop) ?_ (derives_factor_iff.mp h) hlen
    (hstop.mono (by simp [Symbol.continues])) (hstop.mono (by simp +contextual [Symbol.continues]))
  intro t us op hop' hacc
  exact stops_of_op hop' (by cases op <;> simp_all [isMultiplicative, Symbol.continues])

theorem term_complete {operand : Reader} {n : Nat} (hop : Complete .unary operand n) :
    Complete .term (term operand) n := by
  intro us e h hlen rest hstop
  refine chain_complete (factor_complete hop) ?_ (derives_term_iff.mp h) hlen
    (hstop.mono ?_) (hstop.mono (by simp +contextual [Symbol.continues]))
  · intro t us op hop' hacc
    refine stops_of_op hop' ?_
    cases op <;> simp_all [isAdditive, isMultiplicative, Symbol.continues]
  · intro op h
    simp only [Symbol.continues, Bool.or_eq_true] at h ⊢
    rcases h with h | h
    · exact Or.inl (Or.inr h)
    · exact Or.inr h

/-- The arguments of a call are read up to what follows the last of them. -/
theorem arguments_complete {operand : Reader} {n : Nat} (hop : Complete .unary operand n)
    {more : List Further} (hcommas : ∀ m ∈ more, m.comma.kind = .comma)
    (hall : ∀ m ∈ more, Derives .term m.tokens m.expr) {us : List Token} {e : Expr}
    (h : Derives .term us e) (hlen : (us ++ Further.all more).length ≤ n) {t : Token}
    {rest : List Token} (ht : t.kind = .rightParen) :
    Gives (arguments operand (us ++ Further.all more ++ t :: rest))
      (e :: more.map (·.expr)) (t :: rest) := by
  induction more generalizing us e with
  | nil =>
    have hlen' : us.length ≤ n := by simpa [Further.all] using hlen
    have hterm : Gives (term operand (us ++ t :: rest)) e (t :: rest) :=
      term_complete hop us e h hlen' _ (stops_of_kind (by simp [ht]))
    rw [Further.all, List.flatMap_nil, List.append_nil]
    exact gives_arguments.mpr ⟨e, _, hterm, Or.inl ⟨by simp [NoComma, ht], rfl, rfl⟩⟩
  | cons m more ih =>
    have hm : m.comma.kind = .comma := hcommas m List.mem_cons_self
    have hsplit : Further.all (m :: more) = m.comma :: (m.tokens ++ Further.all more) := by
      simp [Further.all]
    rw [hsplit] at hlen ⊢
    rw [List.length_append, List.length_cons] at hlen
    have hnext := ih (fun d hd => hcommas d (List.mem_cons_of_mem m hd))
      (fun d hd => hall d (List.mem_cons_of_mem m hd)) (hall m List.mem_cons_self) (by omega)
    have hterm := term_complete hop us e h (by omega)
      (m.comma :: (m.tokens ++ Further.all more ++ t :: rest)) (stops_of_kind (by simp [hm]))
    rw [List.append_assoc, List.cons_append]
    exact gives_arguments.mpr ⟨e, _, hterm, Or.inr ⟨m.comma, _, rfl, hm, _, hnext, rfl⟩⟩

theorem primary_complete {total : Nat} {operand : Reader} {n : Nat}
    (hop : Complete .unary operand n) : Complete .primary (primary total operand) (n + 1) := by
  intro us e h hlen rest _
  cases h with
  | number hread => exact gives_primary.mpr (Or.inl ⟨rfl, rfl, _, hread, rfl⟩)
  | const c => exact gives_primary.mpr (Or.inr (Or.inl ⟨rfl, rfl, rfl⟩))
  | var x => exact gives_primary.mpr (Or.inr (Or.inr (Or.inl ⟨rfl, rfl, rfl⟩)))
  | @call f opening closing ts e more hopening hclosing hterm hcommas hall =>
    simp only [List.length_cons, List.length_append] at hlen
    have hlen' : (ts ++ Further.all more).length ≤ n := by
      rw [List.length_append]
      omega
    have hargs : Gives (arguments operand (ts ++ Further.all more ++ closing :: rest))
        (e :: more.map (·.expr)) (closing :: rest) :=
      arguments_complete hop hcommas hall hterm hlen' hclosing
    have hsplit : (⟨.func, f⟩ :: opening :: (ts ++ Further.all more ++ [closing])) ++ rest =
        ⟨.func, f⟩ :: opening :: (ts ++ Further.all more ++ closing :: rest) := by simp
    rw [hsplit]
    exact gives_primary.mpr (Or.inr (Or.inr (Or.inr (Or.inl
      ⟨rfl, opening, _, rfl, hopening, _, closing, hargs, hclosing, rfl⟩))))
  | @group opening closing ts e hopening hclosing hterm =>
    simp only [List.length_cons, List.length_append] at hlen
    have hinner := term_complete hop ts e hterm (by omega) (closing :: rest)
      (stops_of_kind (by simp [hclosing]))
    have hsplit : (opening :: (ts ++ [closing])) ++ rest = opening :: (ts ++ closing :: rest) := by
      simp
    rw [hsplit]
    exact gives_primary.mpr (Or.inr (Or.inr (Or.inr (Or.inr
      ⟨hopening, closing, hinner, hclosing⟩))))

/-- **`n` levels are enough for `n` tokens.**  Every level of `unary` is entered by a token. -/
theorem unary_complete (total n : Nat) : Complete .unary (unary total n) n := by
  induction n with
  | zero =>
    intro us e h hlen
    exact absurd (List.eq_nil_of_length_eq_zero (Nat.le_zero.mp hlen)) h.ne_nil
  | succ n ih =>
    intro us e h hlen rest hstop
    cases h with
    | @sign ts t e hsub hunary =>
      have hlen' : ts.length ≤ n := by simpa using hlen
      exact gives_unary.mpr (Or.inl ⟨hsub, e, ih ts e hunary hlen' rest hstop, rfl⟩)
    | ofPrimary hprimary =>
      have hgives : Gives (primary total (unary total n) (us ++ rest)) e rest :=
        primary_complete ih us e hprimary hlen rest hstop
      obtain ⟨t, ts, rfl, hkind⟩ := hprimary.head_not_op
      exact gives_unary.mpr (Or.inr ⟨by simp [Token.op?, hkind], hgives⟩)

/-! ## 5. Whole lists -/

theorem ofTokens_eq_ok {limit : Option Nat} {ts : List Token} {e : Expr} :
    Expr.ofTokens limit ts = .ok e ↔ Gives (readTerm limit ts) e [] := by
  rw [Expr.ofTokens]
  rcases readTerm limit ts with x | ⟨e', rest, lt⟩
  · simp
  · cases rest with
    | nil => simp [eq_comm]
    | cons t rest => simp

/-- A list that is read as an expression is derived with it, whatever the limit on nesting. -/
theorem derives_of_ofTokens {limit : Option Nat} {ts : List Token} {e : Expr}
    (h : Expr.ofTokens limit ts = .ok e) : Derives .term ts e := by
  obtain ⟨us, hus, hD⟩ := term_sound (unary_sound _ _) _ _ _ (ofTokens_eq_ok.mp h)
  rw [List.append_nil] at hus
  exact hus ▸ hD

/-- A list that is derived is read as the tree of its derivation, if there are as many levels as
tokens. -/
theorem ofTokens_of_derives_within {limit : Option Nat} {ts : List Token} {e : Expr}
    (h : Derives .term ts e) (hlevels : ts.length ≤ levels limit ts) :
    Expr.ofTokens limit ts = .ok e := by
  have hgives := term_complete (unary_complete ts.length (levels limit ts)) ts e h hlevels []
    trivial
  rw [List.append_nil] at hgives
  exact ofTokens_eq_ok.mpr hgives

/-- A list that is derived is read as the tree of its derivation. -/
theorem ofTokens_of_derives {ts : List Token} {e : Expr} (h : Derives .term ts e) :
    Expr.ofTokens none ts = .ok e :=
  ofTokens_of_derives_within h (Nat.le_refl _)

/-- The grammar gives a list at most one tree. -/
theorem Derives.unique {ts : List Token} {e e' : Expr} (h : Derives .term ts e)
    (h' : Derives .term ts e') : e = e' := by
  have heq : Except.ok e = (Except.ok e' : Except GrammarError Expr) :=
    (ofTokens_of_derives h).symm.trans (ofTokens_of_derives h')
  exact Except.ok.inj heq

/-- A number token of a text is a primary. -/
theorem derives_number_of_isLexeme {t : Token} (h : t.IsLexeme) (hkind : t.kind = .number) :
    ∃ v, Numeral.readFloat t.text = some v ∧ Derives .primary [t] (.num v) := by
  cases h with
  | number hplain =>
    obtain ⟨v, hv⟩ := hplain.readFloat
    exact ⟨v, hv, .number hv⟩
  | const | var | func | leftParen | rightParen | comma | op => cases hkind

/-- **The reader finds exactly the derivations.**  A list is read as `e` just when the grammar
derives the whole of it with the tree `e`, and there is at most one such tree.  The number tokens
of a text are never in the way: each of them is derived. -/
theorem ofTokens_eq_ok_iff_derives (ts : List Token) :
    (∀ e, Expr.ofTokens none ts = .ok e ↔ Derives .term ts e) ∧
      (∀ e e', Derives .term ts e → Derives .term ts e' → e = e') ∧
      ∀ t ∈ ts, t.IsLexeme → t.kind = .number →
        ∃ v, Numeral.readFloat t.text = some v ∧ Derives .primary [t] (.num v) := by
  refine ⟨fun e => ⟨derives_of_ofTokens, ofTokens_of_derives⟩, ?_, ?_⟩
  · intro e e' h h'
    exact h.unique h'
  · intro t _ hlexeme hkind
    exact derives_number_of_isLexeme hlexeme hkind

end Grammar

end Fluxion
