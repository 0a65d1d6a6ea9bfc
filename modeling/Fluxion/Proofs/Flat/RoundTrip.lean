/-
# Which expressions the flat form keeps

Take an expression that a text denotes, write it in the flat form, and read that text.
`readsBack_iff` says when the result is the expression again: no operator has an operand on its
right that loses its place, and every number is written without an exponent.

If the two conditions hold, every number is one token, the tokens derive the regrouping, and the
regrouping is the expression.  For the converse the numbers come first.  A number that is infinite
is shown as a variable, and one with an exponent brings the constant `e` along.  So the flat form
has more names in it than the expression (`NamesShown`), while a derivation has as many names as
its tokens, and the tokens cannot derive the expression.  Once all numbers are known to be one
token each, what is read is the regrouping, and the operators follow.
-/
import Fluxion.Proofs.Flat.Regrouping
import Fluxion.Proofs.Numeral.Printed

namespace Fluxion

open Fluxion.Numeral Fluxion.Grammar Fluxion.Scan

/-! ## 1. Numbers that were read -/

/-- The numbers of an expression that a text denotes have no sign. -/
theorem Expr.Readable.unsigned {e : Expr} (h : e.Readable) :
    ∀ v, .num v ∈ e.parts → Unsigned v := by
  intro v hv
  obtain ⟨cs, hplain, hread⟩ := h.exists_numeral hv
  obtain ⟨whole, fraction?, rfl, hne, hwhole, hfraction⟩ := hplain
  rw [readFloat_plain hne hwhole hfraction] at hread
  rw [← Option.some.inj hread]
  exact Decimal.toFloat_unsigned _

theorem Expr.sameAll_iff {es ds : List Expr}
    (h : ∀ e ∈ es, ∀ d ∈ ds, (e.same d = true ↔ e = d)) :
    Expr.sameAll es ds = true ↔ es = ds := by
  induction es generalizing ds with
  | nil => cases ds <;> simp [Expr.sameAll]
  | cons e es ih =>
    cases ds with
    | nil => simp [Expr.sameAll]
    | cons d ds =>
      have htail : Expr.sameAll es ds = true ↔ es = ds := ih fun e' he' d' hd' =>
        h e' (List.mem_cons_of_mem e he') d' (List.mem_cons_of_mem d hd')
      rw [Expr.sameAll, Bool.and_eq_true, h e List.mem_cons_self d List.mem_cons_self, htail,
        List.cons.injEq]

/-- **Expressions without signed numbers are the same just when they are equal.** -/
theorem Expr.same_iff {e : Expr} : ∀ {t : Expr}, (∀ v, .num v ∈ e.parts → Unsigned v) →
    (∀ v, .num v ∈ t.parts → Unsigned v) → (e.same t = true ↔ e = t) := by
  induction e using Expr.induct with
  | num v =>
    intro t he ht
    cases t with
    | num w =>
      have hv := he v (Expr.mem_parts_self _)
      have hw := ht w (Expr.mem_parts_self _)
      rw [Expr.same, hv.beq_iff hw, Expr.num.injEq]
    | const | var | func | bin | hole => simp [Expr.same]
  | const c => intro t _ _; cases t <;> simp [Expr.same]
  | var x => intro t _ _; cases t <;> simp [Expr.same]
  | hole => intro t _ _; cases t <;> simp [Expr.same]
  | func f args ih =>
    intro t he ht
    cases t with
    | func g args' =>
      have hall : Expr.sameAll args args' = true ↔ args = args' :=
        Expr.sameAll_iff fun a ha b hb => ih a ha
          (fun v hv => he v (Expr.mem_parts_func.mpr (Or.inr ⟨a, ha, hv⟩)))
          (fun v hv => ht v (Expr.mem_parts_func.mpr (Or.inr ⟨b, hb, hv⟩)))
      rw [Expr.same, Bool.and_eq_true, beq_iff_eq, hall, Expr.func.injEq]
    | num | const | var | bin | hole => simp [Expr.same]
  | bin op l r ihl ihr =>
    intro t he ht
    cases t with
    | bin op' l' r' =>
      have hl := ihl (t := l') (fun v hv => he v (by simp [hv])) (fun v hv => ht v (by simp [hv]))
      have hr := ihr (t := r') (fun v hv => he v (by simp [hv])) (fun v hv => ht v (by simp [hv]))
      rw [Expr.same, Bool.and_eq_true, Bool.and_eq_true, beq_iff_eq, hl, hr, Expr.bin.injEq,
        and_assoc]
    | num | const | var | func | hole => simp [Expr.same]

/-! ## 2. The tokens of a number -/

/-- The token is a constant or a variable. -/
def Token.isName (t : Token) : Bool := t.kind == .const || t.kind == .var

namespace Expr

/-- What is needed to know of the tokens of a number: they are those of its text, they are one
numeral if the number has no exponent, and there is a name among them if it has one. -/
structure NumberShown (v : Float) : Prop where
  spells : Spells (numberText v).toList (numberTokens v)
  whole : IsPositional v → ShownWhole v
  named : ¬ IsPositional v → 0 < (numberTokens v).countP Token.isName

theorem numberShown {v : Float} (hv : Unsigned v) : NumberShown v := by
  by_cases hpositional : IsPositional v
  · obtain ⟨cs, htext, hplain, hread⟩ := numberText_of_isPositional hv hpositional
    have hspells : Spells (numberText v).toList [⟨.number, String.ofList cs⟩] := by
      rw [htext, String.toList_ofList]
      exact spells_plain hplain
    have htokens := numberTokens_eq hspells
    exact ⟨htokens ▸ hspells, fun _ => ⟨_, htokens, hread⟩, fun hnot =>
      absurd hpositional hnot⟩
  · rcases numberText_of_not_isPositional hv hpositional with htext | ⟨cs, htext, hexponent⟩
    · have hword : IsWord ['i', 'n', 'f'] := ⟨by decide, List.all_eq_true.mp (by decide)⟩
      have hspells : Spells (numberText v).toList [⟨.var, "inf"⟩] := by
        rw [htext]
        exact spells_word hword
      have htokens := numberTokens_eq hspells
      refine ⟨htokens ▸ hspells, fun h => absurd h hpositional, fun _ => ?_⟩
      rw [htokens]
      decide
    · obtain ⟨front, ds, hplain, hne, hds, rfl⟩ := hexponent
      have hspells : Spells (numberText v).toList [⟨.number, String.ofList front⟩,
          ⟨.const, "e"⟩, ⟨.op, "-"⟩, ⟨.number, String.ofList ds⟩] := by
        rw [htext, String.toList_ofList]
        exact spells_exponent hplain hne hds
      have htokens := numberTokens_eq hspells
      refine ⟨htokens ▸ hspells, fun h => absurd h hpositional, fun _ => ?_⟩
      rw [htokens]
      simp [Token.isName]

/-! ## 3. Names -/

mutual
/-- How many constants and variables an expression has. -/
def nameCount : Expr → Nat
  | const _ | var _ => 1
  | func _ args => nameCountAll args
  | bin _ l r => l.nameCount + r.nameCount
  | _ => 0

/-- How many constants and variables several expressions have together. -/
def nameCountAll : List Expr → Nat
  | [] => 0
  | e :: es => e.nameCount + nameCountAll es
end

end Expr

theorem Token.isName_of_func (f : String) : (⟨.func, f⟩ : Token).isName = false := rfl

theorem Grammar.Further.nameCount {more : List Further}
    (hcommas : ∀ m ∈ more, m.comma.kind = .comma)
    (h : ∀ m ∈ more, m.tokens.countP Token.isName = m.expr.nameCount) :
    (Further.all more).countP Token.isName = Expr.nameCountAll (more.map (·.expr)) := by
  induction more with
  | nil => rfl
  | cons m more ih =>
    have hcomma : m.comma.isName = false := by
      simp [Token.isName, hcommas m List.mem_cons_self]
    have htail : (Further.all more).countP Token.isName =
        Expr.nameCountAll (more.map (·.expr)) :=
      ih (fun d hd => hcommas d (List.mem_cons_of_mem m hd))
        fun d hd => h d (List.mem_cons_of_mem m hd)
    have hcons : Further.all (m :: more) = m.comma :: m.tokens ++ Further.all more := rfl
    rw [hcons, List.countP_append, List.countP_cons_of_neg (by simp [hcomma]),
      h m List.mem_cons_self, htail, List.map_cons, Expr.nameCountAll]

/-- **A derivation has as many names as its tokens.** -/
theorem Grammar.Derives.nameCount {s : Symbol} {ts : List Token} {e : Expr}
    (h : Derives s ts e) : ts.countP Token.isName = e.nameCount := by
  have hop : ∀ {t : Token} {op : Op}, t.op? = some op → t.isName = false := by
    intro t op ht
    unfold Token.op? at ht
    split at ht
    · next hkind => simp [Token.isName, hkind]
    · cases ht
  induction h with
  | ofFactor _ ih | ofPower _ ih | ofUnary _ ih | ofPrimary _ ih => exact ih
  | sum _ ht _ _ ihl ihr | product _ ht _ _ ihl ihr | raise _ ht _ ihl ihr =>
    rw [List.countP_append, List.countP_cons_of_neg (by simp [hop ht]), ihl, ihr, Expr.nameCount]
  | sign ht _ ih =>
    rw [List.countP_cons_of_neg (by simp [hop ht]), ih]
    simp [Expr.neg, Expr.nameCount, Expr.nameCountAll]
  | number _ => rfl
  | const _ => rfl
  | var _ => rfl
  | @call f opening closing ts e more hopening hclosing _ hcommas _ ih ihall =>
    have hbrackets : opening.isName = false ∧ closing.isName = false := by
      simp [Token.isName, hopening, hclosing]
    simp [hbrackets, Further.nameCount hcommas ihall, ih, Expr.nameCount, Expr.nameCountAll,
      Token.isName_of_func]
  | @group opening closing ts e hopening hclosing _ ih =>
    have hbrackets : opening.isName = false ∧ closing.isName = false := by
      simp [Token.isName, hopening, hclosing]
    simp [hbrackets, ih]

namespace Expr

/-- The flat form shows every name of the expression, and more names if it shows some number with
an exponent. -/
structure NamesShown (e : Expr) : Prop where
  all : e.nameCount ≤ e.shown.countP Token.isName
  whole : e.shown.countP Token.isName ≤ e.nameCount → ∀ v, num v ∈ e.parts → IsPositional v

@[simp] theorem countP_operandTokens (grouped : Bool) (ts : List Token) :
    (operandTokens grouped ts).countP Token.isName = ts.countP Token.isName := by
  cases grouped <;> simp [operandTokens, Token.isName]

theorem isName_headToken (f : String) : (headToken f).isName = false := by
  unfold headToken
  split <;> rfl

theorem NamesShown.func {f : String} {args : List Expr} (h : ∀ a ∈ args, NamesShown a) :
    NamesShown (.func f args) := by
  have hall : nameCountAll args ≤ (shownAll args).countP Token.isName ∧
      ((shownAll args).countP Token.isName ≤ nameCountAll args →
        ∀ a ∈ args, ∀ v, num v ∈ a.parts → IsPositional v) := by
    induction args with
    | nil => exact ⟨Nat.le_refl _, fun _ a ha => by simp at ha⟩
    | cons a args ih =>
      obtain ⟨hle, hwhole⟩ := ih fun d hd => h d (List.mem_cons_of_mem a hd)
      obtain ⟨hle', hwhole'⟩ := h a List.mem_cons_self
      have hcount : (shownAll (a :: args)).countP Token.isName =
          a.shown.countP Token.isName + (shownAll args).countP Token.isName := by
        cases args with
        | nil => simp [shownAll]
        | cons d ds => simp [shownAll, Token.isName]
      rw [hcount, nameCountAll]
      refine ⟨by omega, fun hcount d hd => ?_⟩
      rcases List.mem_cons.mp hd with rfl | hd
      · exact hwhole' (by omega)
      · exact hwhole (by omega) d hd
  have hcount : (Expr.func f args).shown.countP Token.isName =
      (shownAll args).countP Token.isName := by
    simp [shown, isName_headToken]
  constructor
  · rw [hcount, nameCount]
    exact hall.1
  · rw [hcount, nameCount]
    intro hle v hv
    obtain ⟨a, ha, hv⟩ := (mem_parts_func.mp hv).resolve_left (by simp)
    exact hall.2 hle a ha v hv

theorem namesShown {e : Expr} (he : ∀ v, num v ∈ e.parts → Unsigned v) : NamesShown e := by
  induction e using induct with
  | num v =>
    refine ⟨Nat.zero_le _, fun hcount w hw => ?_⟩
    obtain ⟨⟩ := mem_parts_num.mp hw
    by_contra hnot
    have hnamed := (numberShown (he v (mem_parts_self _))).named hnot
    have hnone : (num v).nameCount = 0 := rfl
    rw [shown, hnone] at hcount
    omega
  | const c => exact ⟨Nat.le_refl _, fun _ w hw => by simp at hw⟩
  | var x => exact ⟨Nat.le_refl _, fun _ w hw => by simp at hw⟩
  | hole => exact ⟨Nat.le_refl _, fun _ w hw => by simp [parts] at hw⟩
  | func f args ih =>
    exact .func fun a ha => ih a ha fun v hv => he v (mem_parts_func.mpr (Or.inr ⟨a, ha, hv⟩))
  | bin op l r ihl ihr =>
    obtain ⟨hlel, hwholel⟩ := ihl fun v hv => he v (by simp [hv])
    obtain ⟨hler, hwholer⟩ := ihr fun v hv => he v (by simp [hv])
    have hcount : (bin op l r).shown.countP Token.isName =
        l.shown.countP Token.isName + r.shown.countP Token.isName := by
      simp [shown, Token.isName]
    constructor
    · rw [hcount, nameCount]
      omega
    · rw [hcount, nameCount]
      intro hle v hv
      rcases (mem_parts_bin.mp hv).resolve_left (by simp) with hv | hv
      · exact hwholel (by omega) v hv
      · exact hwholer (by omega) v hv

end Expr

/-! ## 4. Writing and reading -/

/-- The flat form of an expression that a text denotes is read by deriving its tokens. -/
theorem ofText_flat_iff {t : Expr} (ht : t.Readable) :
    ∃ text, t.flat = .ok text ∧
      ∀ e, (Expr.ofText none text).1 = .ok e ↔ Derives .term t.shown e := by
  obtain ⟨text, hflat, hspells⟩ := flat_spells ht fun v hv =>
    (Expr.numberShown (ht.unsigned v hv)).spells
  have htokens : Token.ofText text = .ok t.shown := by
    have hspelt := hspells.ofText
    rwa [String.ofList_toList] at hspelt
  refine ⟨text, hflat, fun e => ?_⟩
  rw [ofText_eq_ok_iff, htokens]
  simp

/-- The tokens of the flat form derive the expression just when it keeps its operands in their
places and its numbers free of exponents. -/
theorem shown_derives_iff {t : Expr} (ht : t.Readable) :
    Derives .term t.shown t ↔
      t.KeepsPlaces ∧ ∀ v, .num v ∈ t.parts → IsPositional v := by
  have hregrouped : (∀ v, .num v ∈ t.parts → IsPositional v) →
      Derives .term t.shown t.regrouped := fun hnum =>
    Expr.shown_derives ht fun v hv =>
      (Expr.numberShown (ht.unsigned v hv)).whole (hnum v hv)
  constructor
  · intro hderives
    have hnum := (Expr.namesShown ht.unsigned).whole (Nat.le_of_eq hderives.nameCount)
    have hself : t.regrouped = t := (hregrouped hnum).unique hderives
    exact ⟨Expr.regrouped_eq_self_iff.mp hself, hnum⟩
  · rintro ⟨hkeeps, hnum⟩
    have hderives := hregrouped hnum
    rwa [Expr.regrouped_eq_self_iff.mpr hkeeps] at hderives

/-- **The flat form of an expression that a text denotes reads back as that expression just when
no operator takes an operand on its right out of its place and every number is finite and either
integral or no less than `0.0001`.** -/
theorem readsBack_iff {s : String} {t : Expr} (h : (Expr.ofText none s).1 = .ok t) :
    ∃ text, t.flat = .ok text ∧
      ((∃ e, (Expr.ofText none text).1 = .ok e ∧ e.same t = true) ↔
        t.KeepsPlaces ∧ ∀ v, .num v ∈ t.parts → IsPositional v) := by
  have ht : t.Readable := readable_of_ofText h
  obtain ⟨text, hflat, hread⟩ := ofText_flat_iff ht
  refine ⟨text, hflat, ?_⟩
  rw [← shown_derives_iff ht]
  constructor
  · rintro ⟨e, he, hsame⟩
    have hequal : e = t :=
      (Expr.same_iff (readable_of_ofText he).unsigned ht.unsigned).mp hsame
    rw [hequal] at he
    exact (hread t).mp he
  · intro hderives
    exact ⟨t, (hread t).mpr hderives, (Expr.same_iff ht.unsigned ht.unsigned).mpr rfl⟩

/-- The expression of the text `x - (y + 2)`, which is written `x - y + 2`. -/
def differenceOfSum : Expr := .bin .sub (.var "x") (.bin .add (.var "y") (.num 2.0))

theorem differenceOfSum_not_readsBack :
    (Expr.ofText none "x - (y + 2)").1 = .ok differenceOfSum ∧
      ∃ text, differenceOfSum.flat = .ok text ∧
        ¬ ∃ e, (Expr.ofText none text).1 = .ok e ∧ e.same differenceOfSum = true := by
  have hnumber : Derives .factor [⟨.number, "2"⟩] (.num 2.0) :=
    (Derives.number (by decide +kernel)).lift (by decide)
  have hsum : Derives .term [⟨.var, "y"⟩, ⟨.op, "+"⟩, ⟨.number, "2"⟩]
      (.bin .add (.var "y") (.num 2.0)) :=
    .sum ((Derives.var "y").lift (by decide)) rfl rfl hnumber
  have hderives : Derives .term (⟨.var, "x"⟩ :: ⟨.op, "-"⟩ ::
      Expr.operandTokens true [⟨.var, "y"⟩, ⟨.op, "+"⟩, ⟨.number, "2"⟩]) differenceOfSum :=
    .sum ((Derives.var "x").lift (by decide)) rfl rfl (hsum.paren.lift (by decide))
  have htext : (Expr.ofText none "x - (y + 2)").1 = .ok differenceOfSum :=
    ofText_eq_ok_iff.mpr ⟨_, by decide +kernel, hderives⟩
  obtain ⟨text, hflat, hiff⟩ := readsBack_iff htext
  refine ⟨htext, text, hflat, fun hback => ?_⟩
  have hplace := (hiff.mp hback).1 .sub _ _ (Expr.mem_parts_self _)
  cases hplace

end Fluxion
