/-
# How far a reader reads

From any place in a list of tokens, each of the five readers takes one piece of the list or fails.
`readFrom_eq_ok_iff` says which piece: it is not empty, its symbol derives it, and the token behind
it is no operator that the symbol could go on with.  Nothing else decides, so the reader sees no
further than that token: the rest of the list may be replaced, and the token itself too, as long as
the new one is no such operator either.

The piece is not lost in the tree.  Read in the order of writing, the tree has the words of the
piece (`Derives.words_eq`): its numbers, names and operators, without the brackets and commas.  One
thing cannot be seen in a tree, namely whether a negation was written by its sign or as a call of
the function with that name; both have the same words.
-/
import Fluxion.Proofs.Grammar.Failing

namespace Fluxion

/-! ## 1. Words -/

/-- What a token leaves in a tree: the value of a number, or the text of a name or an operator. -/
inductive Word where
  | number (value? : Option Float)
  | text (kind : Kind) (text : String)

/-- The name of a function in front of its arguments; that of negation is read as its sign. -/
def Word.applied (f : String) : Word := .text (if f = negation then .op else .func) f

/-- The word of a token; brackets and commas have none. -/
def Token.word? (t : Token) : Option Word :=
  match t.kind with
  | .number => some (.number (Numeral.readFloat t.text))
  | .func => some (.applied t.text)
  | .leftParen | .rightParen | .comma => none
  | kind => some (.text kind t.text)

namespace Expr

mutual
/-- The words of an expression, in the order in which it is written: a function stands in front of
its arguments and an operator between its operands. -/
def words : Expr → List Word
  | num v => [.number (some v)]
  | const c => [.text .const c]
  | var x => [.text .var x]
  | func f args => .applied f :: wordsAll args
  | bin op l r => l.words ++ .text .op op.symbol :: r.words
  | hole => []

/-- The words of several expressions. -/
def wordsAll : List Expr → List Word
  | [] => []
  | e :: es => e.words ++ wordsAll es
end

end Expr

/-- The words of several tokens. -/
def Token.words (ts : List Token) : List Word := ts.filterMap word?

@[simp] theorem Token.words_append (ts us : List Token) : words (ts ++ us) = words ts ++ words us :=
  List.filterMap_append

theorem Token.words_cons_of_word {t : Token} {w : Word} (h : t.word? = some w) (ts : List Token) :
    words (t :: ts) = w :: words ts :=
  List.filterMap_cons_some h

theorem Token.words_cons_of_none {t : Token} (h : t.word? = none) (ts : List Token) :
    words (t :: ts) = words ts :=
  List.filterMap_cons_none h

theorem Token.word?_of_op {t : Token} {op : Op} (h : t.op? = some op) :
    t.word? = some (.text .op op.symbol) := by
  obtain ⟨kind, text⟩ := t
  by_cases hkind : kind = .op
  · obtain rfl : Op.ofSymbol text = op := by simpa [Token.op?, hkind] using h
    rw [Op.symbol_ofSymbol, hkind]
    rfl
  · simp [Token.op?, hkind] at h

theorem Token.word?_of_bracket {t : Token}
    (h : t.kind = .leftParen ∨ t.kind = .rightParen ∨ t.kind = .comma) : t.word? = none := by
  rcases h with h | h | h <;> simp [Token.word?, h]

namespace Grammar

open Token (words words_cons_of_word words_cons_of_none word?_of_op word?_of_bracket)

/-- The further arguments of a call. -/
theorem Further.words_all {more : List Further} (hcommas : ∀ m ∈ more, m.comma.kind = .comma)
    (h : ∀ m ∈ more, words m.tokens = m.expr.words) :
    words (Further.all more) = Expr.wordsAll (more.map (·.expr)) := by
  induction more with
  | nil => rfl
  | cons m more ih =>
    have hcomma : m.comma.word? = none :=
      word?_of_bracket (.inr (.inr (hcommas m List.mem_cons_self)))
    have hrest := ih (fun n hn => hcommas n (List.mem_cons_of_mem m hn))
      fun n hn => h n (List.mem_cons_of_mem m hn)
    have hsplit : Further.all (m :: more) = m.comma :: (m.tokens ++ Further.all more) := by
      simp [Further.all]
    rw [hsplit, words_cons_of_none hcomma, Token.words_append, h m List.mem_cons_self, hrest]
    rfl

/-- **A tree has the words of the tokens that derive it.** -/
theorem Derives.words_eq {s : Symbol} {ts : List Token} {e : Expr} (h : Derives s ts e) :
    words ts = e.words := by
  induction h with
  | ofFactor _ ih | ofPower _ ih | ofUnary _ ih | ofPrimary _ ih => exact ih
  | sum _ hop _ _ ihl ihr | product _ hop _ _ ihl ihr | raise _ hop _ ihl ihr =>
    rw [Token.words_append, words_cons_of_word (word?_of_op hop), ihl, ihr, Expr.words]
  | sign hop _ ih =>
    rw [words_cons_of_word (word?_of_op hop), ih]
    simp [Expr.neg, Expr.words, Expr.wordsAll, Word.applied, negation, Op.symbol]
  | number hread => simp [words, Token.word?, hread, Expr.words]
  | const c => rfl
  | var x => rfl
  | @call f opening closing ts e more hopening hclosing _ hcommas _ ih ihall =>
    have hname : (⟨.func, f⟩ : Token).word? = some (.applied f) := rfl
    rw [words_cons_of_word hname, words_cons_of_none (word?_of_bracket (.inl hopening)),
      Token.words_append, Token.words_append, ih, Further.words_all hcommas ihall,
      words_cons_of_none (word?_of_bracket (.inr (.inl hclosing))) []]
    simp [words, Expr.words, Expr.wordsAll]
  | group hopening hclosing _ ih =>
    rw [words_cons_of_none (word?_of_bracket (.inl hopening)), Token.words_append, ih,
      words_cons_of_none (word?_of_bracket (.inr (.inl hclosing))) []]
    simp [words]

/-! ## 2. The readers of the symbols -/

/-- The reader of a symbol, for a list of `total` tokens and the given number of levels. -/
def reader (total depth : Nat) : Symbol → Reader
  | .term => term (unary total depth)
  | .factor => factor (unary total depth)
  | .power => power (unary total depth)
  | .unary => unary total depth
  | .primary => primary total (unary total depth)

theorem factor_stops {operand : Reader} {ts : List Token} {e : Expr} {rest : List Token}
    (h : Gives (factor operand ts) e rest) : Stops Symbol.factor.continues rest := by
  obtain ⟨hpow, hmul⟩ : Stops (· == .pow) rest ∧ Stops isMultiplicative rest :=
    chain_stops (fun _ _ _ h => power_stops h) h
  cases rest with
  | nil => trivial
  | cons t rest =>
    rw [Stops, Option.eq_none_iff_forall_ne_some] at hpow hmul ⊢
    intro op hacc
    obtain ⟨hop, hcontinues⟩ := accepted?_eq_some.mp hacc
    rcases Bool.or_eq_true_iff.mp hcontinues with hop' | hop'
    · exact hmul op (accepted?_eq_some.mpr ⟨hop, hop'⟩)
    · exact hpow op (accepted?_eq_some.mpr ⟨hop, hop'⟩)

/-- A symbol that goes on with no operator stops everywhere. -/
theorem stops_of_continues_none {s : Symbol} (h : ∀ op, s.continues op = false)
    (ts : List Token) : Stops s.continues ts := by
  cases ts with
  | nil => trivial
  | cons t ts =>
    rw [Stops, Option.eq_none_iff_forall_ne_some]
    intro op hacc
    have htrue := (accepted?_eq_some.mp hacc).2
    rw [h op] at htrue
    cases htrue

variable {s : Symbol} {total depth : Nat} {ts rest : List Token} {e : Expr}

theorem reader_sound (s : Symbol) (total depth : Nat) : Sound s (reader total depth s) := by
  have hunary := unary_sound total depth
  cases s with
  | term => exact term_sound hunary
  | factor => exact factor_sound hunary
  | power => exact power_sound hunary
  | unary => exact hunary
  | primary => exact primary_sound hunary

theorem reader_stops (h : Gives (reader total depth s ts) e rest) : Stops s.continues rest := by
  cases s with
  | term =>
    refine (term_stops h).mono fun op hop => ?_
    cases op with
    | add | sub | mul | div | pow => rfl
    | other symbol => cases hop
  | factor => exact factor_stops h
  | power => exact power_stops h
  | unary => exact stops_of_continues_none (fun _ => rfl) rest
  | primary => exact stops_of_continues_none (fun _ => rfl) rest

theorem reader_complete (s : Symbol) (total depth : Nat) :
    Complete s (reader total depth s) depth := by
  have hunary := unary_complete total depth
  cases s with
  | term => exact term_complete hunary
  | factor => exact factor_complete hunary
  | power => exact power_complete hunary
  | unary => exact hunary
  | primary =>
    intro us e h hlen
    exact primary_complete hunary us e h (Nat.le_succ_of_le hlen)

/-- **What a reader takes.**  With enough levels it takes the piece that its symbol derives, if the
symbol cannot go on behind it. -/
theorem gives_reader_iff (hdepth : ts.length ≤ depth) :
    Gives (reader total depth s ts) e rest ↔
      ∃ us, ts = us ++ rest ∧ Derives s us e ∧ Stops s.continues rest := by
  constructor
  · intro h
    obtain ⟨us, hus, hD⟩ := reader_sound s total depth ts e rest h
    exact ⟨us, hus, hD, reader_stops h⟩
  · rintro ⟨us, rfl, hD, hstops⟩
    rw [List.length_append] at hdepth
    exact reader_complete s total depth us e hD (by omega) rest hstops

/-! ## 3. Reading from a place in a list -/

/-- The token at the place is no operator of the class. -/
theorem stops_drop_iff {accepts : Op → Bool} {i : Nat} :
    Stops accepts (ts.drop i) ↔
      ∀ t op, ts[i]? = some t → t.op? = some op → accepts op = false := by
  rw [← List.head?_drop]
  cases ts.drop i with
  | nil => simp [Stops]
  | cons t us =>
    rw [List.head?_cons, Stops, Option.eq_none_iff_forall_ne_some]
    constructor
    · rintro h _ op ⟨⟩ hop
      by_contra hacc
      exact h op (accepted?_eq_some.mpr ⟨hop, Bool.of_not_eq_false hacc⟩)
    · intro h op haccepted
      obtain ⟨hop, hacc⟩ := accepted?_eq_some.mp haccepted
      rw [h t op rfl hop] at hacc
      cases hacc

/-- What the reader of a symbol reads from the token with the index `start` on: an expression, and
the index of the token behind it. -/
def Symbol.readFrom (s : Symbol) (ts : List Token) (start : Nat) :
    Except GrammarError (Expr × Nat) :=
  (reader ts.length ts.length s (ts.drop start)).map fun (e, rest) =>
    (e, ts.length - rest.1.length)

theorem readFrom_eq_ok {start stop : Nat} :
    s.readFrom ts start = .ok (e, stop) ↔
      ∃ rest, Gives (reader ts.length ts.length s (ts.drop start)) e rest ∧
        stop = ts.length - rest.length := by
  rw [Symbol.readFrom]
  rcases reader ts.length ts.length s (ts.drop start) with x | ⟨e', rest⟩
  · simp [Except.map]
  · rw [exists_congr fun rest' => by rw [gives_ok]]
    simp only [Except.map, Except.ok.injEq, Prod.mk.injEq]
    constructor
    · rintro ⟨rfl, rfl⟩
      exact ⟨rest.1, ⟨rfl, rfl⟩, rfl⟩
    · rintro ⟨_, ⟨rfl, rfl⟩, rfl⟩
      exact ⟨rfl, rfl⟩

/-- **The piece that is read**: it is not empty, the symbol derives it, and the symbol cannot go on
behind it. -/
theorem readFrom_eq_ok_iff {start stop : Nat} :
    s.readFrom ts start = .ok (e, stop) ↔
      start < stop ∧ stop ≤ ts.length ∧ Derives s ((ts.take stop).drop start) e ∧
        Stops s.continues (ts.drop stop) := by
  have hdepth : (ts.drop start).length ≤ ts.length := by simp
  rw [readFrom_eq_ok]
  constructor
  · rintro ⟨rest, hgives, rfl⟩
    obtain ⟨us, hus, hD, hstops⟩ := (gives_reader_iff hdepth).mp hgives
    have hne : us.length ≠ 0 := fun h => hD.ne_nil (List.eq_nil_of_length_eq_zero h)
    have hlength : ts.length - start = us.length + rest.length := by
      rw [← List.length_drop, hus, List.length_append]
    have hstop : ts.length - rest.length = start + us.length := by omega
    have hpiece : (ts.take (start + us.length)).drop start = us := by
      rw [List.drop_take, hus, Nat.add_sub_cancel_left, List.take_left]
    have hrest : ts.drop (start + us.length) = rest := by
      rw [← List.drop_drop, hus, List.drop_left]
    rw [hstop, hpiece, hrest]
    exact ⟨by omega, by omega, hD, hstops⟩
  · rintro ⟨hlt, hle, hD, hstops⟩
    refine ⟨ts.drop stop, (gives_reader_iff hdepth).mpr ⟨_, ?_, hD, hstops⟩, ?_⟩
    · calc
        ts.drop start = (ts.take stop ++ ts.drop stop).drop start := by rw [List.take_append_drop]
        _ = (ts.take stop).drop start ++ ts.drop stop :=
          List.drop_append_of_le_length (by rw [List.length_take]; omega)
    · rw [List.length_drop]
      omega

/-- **Progress, yield and locality of the readers.**  A reader that succeeds has taken at least one
token and none that is not there, the words of its tree are those of the tokens that it has taken,
and it has stopped in front of no operator that it would go on with.  It reads the same from every
list with the same tokens up to there, whatever follows, except for such an operator. -/
theorem readFrom_extent {start stop : Nat} (h : s.readFrom ts start = .ok (e, stop)) :
    start < stop ∧ stop ≤ ts.length ∧
      Token.words ((ts.take stop).drop start) = e.words ∧
      (∀ t op, ts[stop]? = some t → t.op? = some op → s.continues op = false) ∧
      ∀ ts' : List Token, ts'.take stop = ts.take stop →
        (∀ t op, ts'[stop]? = some t → t.op? = some op → s.continues op = false) →
        s.readFrom ts' start = .ok (e, stop) := by
  obtain ⟨hlt, hle, hD, hstops⟩ := readFrom_eq_ok_iff.mp h
  refine ⟨hlt, hle, hD.words_eq, stops_drop_iff.mp hstops, fun ts' hsame hstops' => ?_⟩
  have hle' : stop ≤ ts'.length := by
    have hlength := congrArg List.length hsame
    rw [List.length_take, List.length_take] at hlength
    omega
  rw [← hsame] at hD
  exact readFrom_eq_ok_iff.mpr ⟨hlt, hle', hD, stops_drop_iff.mpr hstops'⟩

/-- In `- f(x, (2)) ^ e + y`, the factor behind the sign is `f(x, (2)) ^ e`, and it is the same in
front of a closing parenthesis in place of `+ y`. -/
theorem readFrom_extent_behind_sign :
    let ts : List Token := [⟨.op, "-"⟩, ⟨.func, "f"⟩, ⟨.leftParen, "("⟩, ⟨.var, "x"⟩, ⟨.comma, ","⟩,
      ⟨.leftParen, "("⟩, ⟨.number, "2"⟩, ⟨.rightParen, ")"⟩, ⟨.rightParen, ")"⟩, ⟨.op, "^"⟩,
      ⟨.const, "e"⟩, ⟨.op, "+"⟩, ⟨.var, "y"⟩]
    let e : Expr := .bin .pow (.func "f" [.var "x", .num 2.0]) (.const "e")
    let ts' : List Token := ts.take 11 ++ [⟨.rightParen, ")"⟩]
    Symbol.factor.readFrom ts 1 = .ok (e, 11) ∧ Symbol.factor.readFrom ts' 1 = .ok (e, 11) ∧
      Token.words ((ts.take 11).drop 1) =
        [.text .func "f", .text .var "x", .number (some 2.0), .text .op "^", .text .const "e"] := by
  intro ts e ts'
  have hx : Derives .term [⟨.var, "x"⟩] (.var "x") :=
    .ofFactor (.ofPower (.ofUnary (.ofPrimary (.var "x"))))
  have htwo : Derives .term [⟨.number, "2"⟩] (.num 2.0) :=
    .ofFactor (.ofPower (.ofUnary (.ofPrimary (.number (by decide +kernel)))))
  let group : List Token := ⟨.leftParen, "("⟩ :: ([⟨.number, "2"⟩] ++ [⟨.rightParen, ")"⟩])
  have hgroup : Derives .term group (.num 2.0) :=
    .ofFactor (.ofPower (.ofUnary (.ofPrimary (.group rfl rfl htwo))))
  let second : Further := ⟨⟨.comma, ","⟩, group, .num 2.0⟩
  have hcall : Derives .primary (⟨.func, "f"⟩ :: ⟨.leftParen, "("⟩ ::
      ([⟨.var, "x"⟩] ++ Further.all [second] ++ [⟨.rightParen, ")"⟩]))
      (.func "f" [.var "x", .num 2.0]) :=
    .call rfl rfl hx (by simp [second]) (by simpa using hgroup)
  have hpower : Derives .factor ((ts.take 11).drop 1) e :=
    .ofPower (.raise (t := ⟨.op, "^"⟩) (.ofPrimary hcall) rfl
      (.ofUnary (.ofPrimary (.const "e"))))
  have hread : Symbol.factor.readFrom ts 1 = .ok (e, 11) :=
    readFrom_eq_ok_iff.mpr ⟨by decide, by decide, hpower, rfl⟩
  obtain ⟨-, -, hwords, -, hsame⟩ := readFrom_extent hread
  refine ⟨hread, hsame ts' rfl ?_, hwords.trans rfl⟩
  rintro t op ⟨⟩ hop
  cases hop

end Grammar

end Fluxion
