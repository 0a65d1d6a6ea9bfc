/-
# What the flat form reads back as

The flat form leaves an operand bare unless its operator ranks below the one around it.  The
grammar knows three levels of operators, and the first two group to the left.  So an operand that
stands bare on the right of an operator of its own level loses its place: `x - (y + z)` is written
`x - y + z` and read as `(x - y) + z`.

`Expr.regrouped` is the expression that is read, given directly by recursion: the operand on the
right is taken apart along the operators that stand bare in it, and its pieces are joined to the
left one after another (`Expr.attached`).  `shown_derives` proves that the tokens of the flat form
derive it.

An expression is its own regrouping if no operator has such an operand on its right, and only
then.  For the second half every node is charged the size of its right operand; regrouping moves
nodes to the left and never increases the total (`rightWeight`), and each such operand makes it
smaller.
-/
import Fluxion.Proofs.Flat.Shown

namespace Fluxion

open Fluxion.Numeral Fluxion.Grammar

/-! ## 1. Regrouping -/

/-- An operand with the operator `inner` stands bare on the right of `op`, on the level of
`op`. -/
def Op.joins (op inner : Op) : Bool :=
  (op, inner) ∈ [(sub, sub), (sub, add), (add, add), (mul, mul), (mul, div), (div, div)]

namespace Expr

/-- The operand has its place taken on the right of the operator. -/
def joinedBy (op : Op) : Expr → Bool
  | bin inner _ _ => op.joins inner
  | _ => false

mutual
/-- What the flat form of an expression is read as. -/
def regrouped : Expr → Expr
  | func f args => func f (regroupedAll args)
  | bin op l r => attached op op l.regrouped r
  | e => e

/-- What several flat forms are read as. -/
def regroupedAll : List Expr → List Expr
  | [] => []
  | e :: es => e.regrouped :: regroupedAll es

/-- What is read where an operand of `parent` follows `left` and the operator `op`. -/
def attached (parent op : Op) (left : Expr) : Expr → Expr
  | bin inner l r =>
    if parent.joins inner then attached inner inner (attached inner op left l) r
    else bin op left (attached inner inner l.regrouped r)
  | func f args => bin op left (func f (regroupedAll args))
  | e => bin op left e
end

theorem attached_of_not_joinedBy {parent op : Op} {left e : Expr}
    (h : joinedBy parent e = false) : attached parent op left e = bin op left e.regrouped := by
  cases e with
  | bin inner l r =>
    rw [joinedBy] at h
    simp [attached, regrouped, h]
  | num | const | var | hole => rfl
  | func f args => rfl

theorem attached_of_joins {parent op inner : Op} {left l r : Expr}
    (h : parent.joins inner = true) :
    attached parent op left (bin inner l r) =
      attached inner inner (attached inner op left l) r := by
  simp [attached, h]

theorem regroupedAll_eq_map : ∀ es : List Expr, regroupedAll es = es.map regrouped
  | [] => rfl
  | e :: es => by rw [regroupedAll, regroupedAll_eq_map es, List.map_cons]

end Expr

/-! ## 2. The level of an operator -/

namespace Grammar

/-- How many kinds of things a symbol derives besides its own. -/
def Symbol.height : Symbol → Nat
  | .primary => 0
  | .unary => 1
  | .power => 2
  | .factor => 3
  | .term => 4

/-- What a symbol derives, every higher one derives. -/
theorem Derives.lift {s s' : Symbol} {ts : List Token} {e : Expr} (h : Derives s ts e)
    (hle : s.height ≤ s'.height) : Derives s' ts e := by
  cases s <;> cases s' <;> simp only [Symbol.height] at hle <;> first
    | exact h
    | exact .ofPrimary h
    | exact .ofUnary h
    | exact .ofPower h
    | exact .ofFactor h
    | exact .ofUnary (.ofPrimary h)
    | exact .ofPower (.ofUnary h)
    | exact .ofFactor (.ofPower h)
    | exact .ofPower (.ofUnary (.ofPrimary h))
    | exact .ofFactor (.ofPower (.ofUnary h))
    | exact .ofFactor (.ofPower (.ofUnary (.ofPrimary h)))
    | omega

/-- The tokens of an operand in parentheses are a primary. -/
theorem Derives.paren {s : Symbol} {ts : List Token} {e : Expr} (h : Derives s ts e) :
    Derives .primary (Expr.operandTokens true ts) e :=
  .group rfl rfl (h.lift (by cases s <;> simp [Symbol.height]))

/-- Terms with commas between them are the arguments of a call; `tokens` and `tree` say what is
derived for each of them. -/
theorem derives_call (f : String) {tokens : Expr → List Token} {tree : Expr → Expr} {e : Expr}
    {es : List Expr} (h : ∀ d ∈ e :: es, Derives .term (tokens d) (tree d)) :
    Derives .primary
      (⟨.func, f⟩ :: Expr.operandTokens true (tokens e ++
        Further.all (es.map fun d => ⟨⟨.comma, ","⟩, tokens d, tree d⟩)))
      (.func f ((e :: es).map tree)) := by
  have hcommas : ∀ m ∈ es.map fun d => (⟨⟨.comma, ","⟩, tokens d, tree d⟩ : Further),
      m.comma.kind = .comma := by
    intro m hm
    obtain ⟨d, -, rfl⟩ := List.mem_map.mp hm
    rfl
  have hmore : ∀ m ∈ es.map fun d => (⟨⟨.comma, ","⟩, tokens d, tree d⟩ : Further),
      Derives .term m.tokens m.expr := by
    intro m hm
    obtain ⟨d, hd, rfl⟩ := List.mem_map.mp hm
    exact h d (List.mem_cons_of_mem e hd)
  have hcall : Derives .primary
      (⟨.func, f⟩ :: ⟨.leftParen, "("⟩ :: (tokens e ++
        Further.all (es.map fun d => ⟨⟨.comma, ","⟩, tokens d, tree d⟩) ++ [⟨.rightParen, ")"⟩]))
      (.func f (tree e :: (es.map fun d => ⟨⟨.comma, ","⟩, tokens d, tree d⟩).map Further.expr)) :=
    .call rfl rfl (h e List.mem_cons_self) hcommas hmore
  simpa [Expr.operandTokens, Function.comp_def] using hcall

end Grammar

namespace Op

/-- The symbol that derives what the operator joins. -/
def symbolOf : Op → Symbol
  | add | sub => .term
  | mul | div => .factor
  | _ => .power

/-- The symbol that derives its left operand. -/
def leftSymbol : Op → Symbol
  | add | sub => .term
  | mul | div => .factor
  | _ => .unary

/-- The symbol that derives its right operand. -/
def rightSymbol : Op → Symbol
  | add | sub => .factor
  | _ => .power

/-- Two operands and their operator. -/
theorem derives_bin {op : Op} (hop : op.isKnown = true) {ts us : List Token} {l r : Expr}
    (hl : Derives op.leftSymbol ts l) (hr : Derives op.rightSymbol us r) :
    Derives op.symbolOf (ts ++ ⟨.op, op.symbol⟩ :: us) (.bin op l r) := by
  cases op with
  | add | sub => exact .sum hl rfl rfl hr
  | mul | div => exact .product hl rfl rfl hr
  | pow => exact .raise hl rfl hr
  | other s => cases hop

/-- Operators of one level, and that level groups to the left. -/
theorem joins_level {op inner : Op} (h : op.joins inner = true) :
    inner.isKnown = true ∧ inner ≠ pow ∧ inner.symbolOf = op.symbolOf ∧
      inner.leftSymbol = op.symbolOf ∧ ¬ inner.level < op.level := by
  cases op <;> cases inner <;> simp_all [joins, isKnown, symbolOf, leftSymbol, level, rank] <;>
    decide

end Op

namespace Expr

/-- The symbol that derives a bare expression. -/
def symbolOf : Expr → Symbol
  | bin op _ _ => op.symbolOf
  | func f _ => if f = negation then .unary else .primary
  | _ => .primary

/-- An operand that is no operator application is at most a unary. -/
theorem height_le_one {e : Expr} (he : e.isBin = false) : e.symbolOf.height ≤ 1 := by
  cases e with
  | bin op l r => cases he
  | func f args =>
    rw [symbolOf]
    split
    · exact Nat.le_refl 1
    · exact Nat.zero_le 1
  | num | const | var | hole => exact Nat.zero_le 1

theorem one_le_leftSymbol (op : Op) : 1 ≤ op.leftSymbol.height := by
  cases op <;> simp [Op.leftSymbol, Symbol.height]

theorem one_le_rightSymbol (op : Op) : 1 ≤ op.rightSymbol.height := by
  cases op <;> simp [Op.rightSymbol, Symbol.height]

/-- An operand that stands bare on the left is what the operator takes on its left. -/
theorem height_le_leftSymbol {op : Op} {e : Expr} (hop : op.isKnown = true)
    (he : e.Readable) (hbare : grouped op e true = false) :
    e.symbolOf.height ≤ op.leftSymbol.height := by
  cases he with
  | @bin inner l r hinner _ _ =>
    rw [grouped] at hbare
    cases op <;> cases inner <;>
      simp_all [symbolOf, Op.symbolOf, Op.leftSymbol, Symbol.height, Op.isKnown, Op.level,
        Op.rank, Except.toOption]
  | num | const | var | neg | call =>
    exact Nat.le_trans (height_le_one rfl) (one_le_leftSymbol op)

/-- An operand that stands bare on the right and keeps its place is what the operator takes on
its right. -/
theorem height_le_rightSymbol {op : Op} {e : Expr} (hop : op.isKnown = true)
    (he : e.Readable) (hbare : grouped op e false = false) (hjoined : joinedBy op e = false) :
    e.symbolOf.height ≤ op.rightSymbol.height := by
  cases he with
  | @bin inner l r hinner _ _ =>
    rw [grouped] at hbare
    rw [joinedBy, Op.joins] at hjoined
    cases op <;> cases inner <;>
      simp_all [symbolOf, Op.symbolOf, Op.rightSymbol, Symbol.height, Op.isKnown, Op.level,
        Op.rank, Except.toOption]
  | num | const | var | neg | call =>
    exact Nat.le_trans (height_le_one rfl) (one_le_rightSymbol op)

/-- Only in a power does the side of an operand matter. -/
theorem grouped_left {op : Op} {e : Expr} (hop : op ≠ .pow) :
    grouped op e true = grouped op e false := by
  cases e <;> simp [grouped, hop]

end Expr

/-! ## 3. The tokens derive the regrouping -/

namespace Expr

/-- The text of the number is one token, which denotes the number. -/
def ShownWhole (v : Float) : Prop :=
  ∃ text, numberTokens v = [⟨.number, text⟩] ∧ readFloat text = some v

/-- What is proved of an expression by induction: its tokens derive its regrouping, and behind
any left operand and operator they derive what is read there. -/
structure Regroups (e : Expr) : Prop where
  alone : Derives e.symbolOf e.shown e.regrouped
  behind : ∀ {parent op : Op} {ts : List Token} {left : Expr}, parent.isKnown = true →
    op.isKnown = true → parent.symbolOf = op.symbolOf → Derives op.leftSymbol ts left →
    Derives op.symbolOf (ts ++ ⟨.op, op.symbol⟩ :: operandTokens (grouped parent e false) e.shown)
      (attached parent op left e)

/-- Behind an operator that leaves it in its place, an operand is joined as it is read alone. -/
theorem derives_behind {e : Expr} (he : e.Readable)
    (halone : Derives e.symbolOf e.shown e.regrouped) {parent op : Op} {ts : List Token}
    {left : Expr} (hparent : parent.isKnown = true) (hop : op.isKnown = true)
    (hlevel : parent.symbolOf = op.symbolOf) (hleft : Derives op.leftSymbol ts left)
    (hjoined : joinedBy parent e = false) :
    Derives op.symbolOf
      (ts ++ ⟨.op, op.symbol⟩ :: operandTokens (grouped parent e false) e.shown)
      (attached parent op left e) := by
  have hright : parent.rightSymbol = op.rightSymbol := by
    revert hlevel
    cases parent <;> cases op <;> simp [Op.symbolOf, Op.rightSymbol]
  have hoperand : Derives op.rightSymbol (operandTokens (grouped parent e false) e.shown)
      e.regrouped := by
    rw [← hright]
    cases hgrouped : grouped parent e false with
    | false => exact halone.lift (height_le_rightSymbol hparent he hgrouped hjoined)
    | true => exact halone.paren.lift (Nat.zero_le _)
  rw [attached_of_not_joinedBy hjoined]
  exact Op.derives_bin hop hleft hoperand

/-- An expression whose root is no operator keeps its place everywhere. -/
theorem Regroups.of_not_isBin {e : Expr} (he : e.Readable) (hroot : e.isBin = false)
    (halone : Derives e.symbolOf e.shown e.regrouped) : Regroups e := by
  refine ⟨halone, ?_⟩
  intro parent op ts left hparent hop hlevel hleft
  refine derives_behind he halone hparent hop hlevel hleft ?_
  cases e with
  | bin op l r => cases hroot
  | num | const | var | func | hole => rfl

theorem Regroups.bin {op : Op} {l r : Expr} (hop : op.isKnown = true) (hl : l.Readable)
    (hr : r.Readable) (ihl : Regroups l) (ihr : Regroups r) : Regroups (.bin op l r) := by
  have hleft : Derives op.leftSymbol (operandTokens (grouped op l true) l.shown) l.regrouped := by
    cases hgrouped : grouped op l true with
    | false => exact ihl.alone.lift (height_le_leftSymbol hop hl hgrouped)
    | true => exact ihl.alone.paren.lift (Nat.zero_le _)
  have halone : Derives op.symbolOf (Expr.bin op l r).shown (Expr.bin op l r).regrouped :=
    ihr.behind hop hop rfl hleft
  refine ⟨halone, ?_⟩
  intro parent op' ts left hparent hop' hlevel hleft'
  cases hjoined : parent.joins op with
  | false => exact derives_behind (.bin hop hl hr) halone hparent hop' hlevel hleft' hjoined
  | true =>
    obtain ⟨-, hpow, hsame, hsymbol, hrank⟩ := Op.joins_level hjoined
    have hbare : grouped parent (Expr.bin op l r) false = false := by
      simp [grouped, hrank]
    have hfirst : Derives op.leftSymbol
        (ts ++ ⟨.op, op'.symbol⟩ :: operandTokens (grouped op l true) l.shown)
        (attached op op' left l) := by
      rw [grouped_left hpow, hsymbol, hlevel]
      exact ihl.behind hop hop' (hsame.trans hlevel) hleft'
    have hboth := ihr.behind hop hop rfl hfirst
    rw [attached_of_joins hjoined, ← hlevel, ← hsame, hbare]
    simpa [shown, operandTokens] using hboth

/-- An argument after the first one, as the flat form shows it. -/
def asFurther (e : Expr) : Further := ⟨⟨.comma, ","⟩, e.shown, e.regrouped⟩

theorem shownAll_cons (e : Expr) (es : List Expr) :
    shownAll (e :: es) = e.shown ++ Further.all (es.map asFurther) := by
  induction es generalizing e with
  | nil => simp [shownAll, Further.all]
  | cons d ds ih =>
    rw [shownAll, ih d]
    simp [Further.all, asFurther]

theorem regroups {e : Expr} (he : e.Readable)
    (hnum : ∀ v, num v ∈ e.parts → ShownWhole v) : Regroups e := by
  induction he with
  | @num cs v hplain hread =>
    obtain ⟨text, htokens, hvalue⟩ := hnum v (mem_parts_self _)
    refine .of_not_isBin (.num hplain hread) rfl ?_
    rw [shown, htokens]
    exact .number hvalue
  | @const c hc => exact .of_not_isBin (.const hc) rfl (.const c)
  | @var cs hword hnot => exact .of_not_isBin (.var hword hnot) rfl (.var _)
  | @neg e he ih =>
    have halone := (ih fun v hv => hnum v (by simp [neg, hv])).alone
    refine .of_not_isBin (.neg he) rfl ?_
    exact .sign rfl (.ofPrimary halone.paren)
  | @call cs args hword hne hargs ih =>
    obtain ⟨a, more, rfl⟩ := List.exists_cons_of_ne_nil hne
    have hterm : ∀ d ∈ a :: more, Derives .term d.shown d.regrouped := by
      intro d hd
      have hregroups := ih d hd fun v hv => hnum v (mem_parts_func.mpr (Or.inr ⟨d, hd, hv⟩))
      exact hregroups.alone.lift (by cases d.symbolOf <;> simp [Symbol.height])
    have hname : String.ofList cs ≠ negation := hword.ne_negation
    refine .of_not_isBin (.call hword hne hargs) rfl ?_
    have hcall : Derives .primary
        (⟨.func, String.ofList cs⟩ ::
          operandTokens true (a.shown ++ Further.all (more.map asFurther)))
        (.func (String.ofList cs) ((a :: more).map regrouped)) :=
      derives_call (String.ofList cs) hterm
    rw [← shownAll_cons, ← regroupedAll_eq_map] at hcall
    simpa [symbolOf, hname, shown, headToken, regrouped] using hcall
  | @bin op l r hop hl hr ihl ihr =>
    exact .bin hop hl hr (ihl fun v hv => hnum v (by simp [hv]))
      (ihr fun v hv => hnum v (by simp [hv]))

/-- **The tokens of the flat form derive the regrouping**, provided that every number is one
token. -/
theorem shown_derives {e : Expr} (he : e.Readable)
    (hnum : ∀ v, num v ∈ e.parts → ShownWhole v) : Derives .term e.shown e.regrouped :=
  (regroups he hnum).alone.lift (by cases e.symbolOf <;> simp [Symbol.height])

end Expr

/-! ## 4. Which expressions are their own regrouping -/

namespace Expr

/-- Every operand on the right keeps its place. -/
def KeepsPlaces (e : Expr) : Prop :=
  ∀ op l r, bin op l r ∈ e.parts → joinedBy op r = false

theorem keepsPlaces_func_iff {f : String} {args : List Expr} :
    (func f args).KeepsPlaces ↔ ∀ a ∈ args, a.KeepsPlaces := by
  simp only [KeepsPlaces, mem_parts_func, reduceCtorEq, false_or]
  constructor
  · intro h a ha op l r hp
    exact h op l r ⟨a, ha, hp⟩
  · rintro h op l r ⟨a, ha, hp⟩
    exact h a ha op l r hp

theorem keepsPlaces_bin_iff {op : Op} {l r : Expr} :
    (bin op l r).KeepsPlaces ↔
      joinedBy op r = false ∧ l.KeepsPlaces ∧ r.KeepsPlaces := by
  simp only [KeepsPlaces, mem_parts_bin]
  constructor
  · intro h
    refine ⟨h op l r (Or.inl rfl), ?_, ?_⟩
    · intro op' a b hp
      exact h op' a b (Or.inr (Or.inl hp))
    · intro op' a b hp
      exact h op' a b (Or.inr (Or.inr hp))
  · rintro ⟨hroot, hl, hr⟩ op' a b (hp | hp | hp)
    · cases hp
      exact hroot
    · exact hl op' a b hp
    · exact hr op' a b hp

/-- An expression in which every operand keeps its place is read back as it is. -/
theorem regrouped_of_keepsPlaces {e : Expr} (h : e.KeepsPlaces) : e.regrouped = e := by
  induction e using induct with
  | num | const | var | hole => rfl
  | func f args ih =>
    have hall : ∀ a ∈ args, a.regrouped = a := fun a ha =>
      ih a ha (keepsPlaces_func_iff.mp h a ha)
    rw [regrouped, regroupedAll_eq_map, List.map_congr_left hall, List.map_id']
  | bin op l r ihl ihr =>
    obtain ⟨hroot, hl, hr⟩ := keepsPlaces_bin_iff.mp h
    rw [regrouped, attached_of_not_joinedBy hroot, ihl hl, ihr hr]

mutual
/-- The sizes of all operands on the right, added up. -/
def rightWeight : Expr → Nat
  | func _ args => rightWeightAll args
  | bin _ l r => l.rightWeight + (r.rightWeight + r.size)
  | _ => 0

/-- The same for several expressions. -/
def rightWeightAll : List Expr → Nat
  | [] => 0
  | e :: es => e.rightWeight + rightWeightAll es
end

/-- What holds of an expression and its regrouping, alone and behind a left operand: no node is
lost, and nodes move to the left only, at least one of them if an operand loses its place. -/
structure MovesLeft (e : Expr) : Prop where
  size : e.regrouped.size = e.size
  weight : e.regrouped.rightWeight ≤ e.rightWeight
  moved : e.KeepsPlaces ∨ e.regrouped.rightWeight < e.rightWeight
  sizeBehind : ∀ parent op left, (attached parent op left e).size = left.size + e.size + 1
  weightBehind : ∀ parent op left,
    (attached parent op left e).rightWeight ≤ left.rightWeight + (e.rightWeight + e.size)
  movedBehind : ∀ parent op left,
    (joinedBy parent e = false ∧ e.KeepsPlaces) ∨
      (attached parent op left e).rightWeight < left.rightWeight + (e.rightWeight + e.size)

/-- Behind an operator that leaves it in its place, an operand moves as it does alone. -/
theorem MovesLeft.of_alone {e : Expr} (hsize : e.regrouped.size = e.size)
    (hweight : e.regrouped.rightWeight ≤ e.rightWeight)
    (hmoved : e.KeepsPlaces ∨ e.regrouped.rightWeight < e.rightWeight)
    (hjoined : ∀ parent op left, joinedBy parent e = true →
      (attached parent op left e).size = left.size + e.size + 1 ∧
        (attached parent op left e).rightWeight < left.rightWeight + (e.rightWeight + e.size)) :
    MovesLeft e := by
  refine ⟨hsize, hweight, hmoved, ?_, ?_, ?_⟩
  · intro parent op left
    cases h : joinedBy parent e with
    | true => exact (hjoined parent op left h).1
    | false => rw [attached_of_not_joinedBy h, Expr.size, hsize]
  · intro parent op left
    cases h : joinedBy parent e with
    | true => exact Nat.le_of_lt (hjoined parent op left h).2
    | false =>
      rw [attached_of_not_joinedBy h, rightWeight, hsize]
      omega
  · intro parent op left
    cases h : joinedBy parent e with
    | true => exact Or.inr (hjoined parent op left h).2
    | false =>
      rw [attached_of_not_joinedBy h, rightWeight, hsize]
      rcases hmoved with hkeeps | hless
      · exact Or.inl ⟨rfl, hkeeps⟩
      · exact Or.inr (by omega)

theorem MovesLeft.func {f : String} {args : List Expr} (h : ∀ a ∈ args, MovesLeft a) :
    MovesLeft (.func f args) := by
  have hall : sizeAll (regroupedAll args) = sizeAll args ∧
      rightWeightAll (regroupedAll args) ≤ rightWeightAll args ∧
      ((∀ a ∈ args, a.KeepsPlaces) ∨
        rightWeightAll (regroupedAll args) < rightWeightAll args) := by
    induction args with
    | nil => exact ⟨rfl, Nat.le_refl _, Or.inl (by simp)⟩
    | cons a args ih =>
      obtain ⟨hsize, hweight, hmoved⟩ := ih fun d hd => h d (List.mem_cons_of_mem a hd)
      have ha := h a List.mem_cons_self
      have hsizea := ha.size
      have hweighta := ha.weight
      simp only [regroupedAll, sizeAll, rightWeightAll]
      refine ⟨by omega, by omega, ?_⟩
      rcases ha.moved with hkeepsa | hlessa
      · rcases hmoved with hkeeps | hless
        · refine Or.inl ?_
          intro d hd
          rcases List.mem_cons.mp hd with rfl | hd
          · exact hkeepsa
          · exact hkeeps d hd
        · exact Or.inr (by omega)
      · exact Or.inr (by omega)
  obtain ⟨hsize, hweight, hmoved⟩ := hall
  refine .of_alone ?_ hweight ?_ ?_
  · simp [regrouped, Expr.size, hsize]
  · rcases hmoved with hkeeps | hless
    · exact Or.inl (keepsPlaces_func_iff.mpr hkeeps)
    · exact Or.inr hless
  · intro parent op left hjoined
    cases hjoined

theorem MovesLeft.bin {op : Op} {l r : Expr} (ihl : MovesLeft l) (ihr : MovesLeft r) :
    MovesLeft (.bin op l r) := by
  have hsizel := ihl.size
  have hweightl := ihl.weight
  refine .of_alone ?_ ?_ ?_ ?_
  · rw [regrouped, ihr.sizeBehind, hsizel, Expr.size]
  · have hweight := ihr.weightBehind op op l.regrouped
    simp only [regrouped, rightWeight]
    omega
  · have hweight := ihr.weightBehind op op l.regrouped
    have hmoved := ihr.movedBehind op op l.regrouped
    simp only [regrouped, rightWeight, keepsPlaces_bin_iff]
    rcases ihl.moved with hkeepsl | hlessl
    · rcases hmoved with ⟨hroot, hkeepsr⟩ | hless
      · exact Or.inl ⟨hroot, hkeepsl, hkeepsr⟩
      · exact Or.inr (by omega)
    · exact Or.inr (by omega)
  · intro parent op' left hjoined
    rw [attached_of_joins hjoined]
    have hsize := ihr.sizeBehind op op (attached op op' left l)
    have hsize' := ihl.sizeBehind op op' left
    have hweight := ihr.weightBehind op op (attached op op' left l)
    have hweight' := ihl.weightBehind op op' left
    simp only [Expr.size, rightWeight]
    constructor
    · omega
    · omega

theorem movesLeft (e : Expr) : MovesLeft e := by
  have hleaf : ∀ {d : Expr}, d.isBin = false → d.regrouped = d → d.KeepsPlaces → MovesLeft d := by
    intro d hroot hself hkeeps
    refine .of_alone (by rw [hself]) (Nat.le_of_eq (by rw [hself])) (Or.inl hkeeps) ?_
    intro parent op left hjoined
    cases d with
    | bin => cases hroot
    | num | const | var | func | hole => cases hjoined
  induction e using induct with
  | num | const | var | hole => exact hleaf rfl rfl (by intro op l r h; simp [parts] at h)
  | func f args ih => exact .func ih
  | bin op l r ihl ihr => exact .bin ihl ihr

/-- **An expression is its own regrouping just when every operand keeps its place.** -/
theorem regrouped_eq_self_iff {e : Expr} : e.regrouped = e ↔ e.KeepsPlaces := by
  constructor
  · intro h
    rcases (movesLeft e).moved with hkeeps | hless
    · exact hkeeps
    · rw [h] at hless
      exact absurd hless (Nat.lt_irrefl _)
  · exact regrouped_of_keepsPlaces

end Expr

end Fluxion
