/-
# Distinct numbers have distinct texts

The text of a finite number without a sign is read back as that number, whether it is a plain
numeral or has an exponent (`numberText_spec`).  So no two of these numbers have the same text
(`numberText_injective`).

The texts are runs of digits, points, signs and the letter `e`, and begin with a digit.  The text of
a negated number is a minus sign and the text of the number (`numberText_neg`).  Zero is written
without its sign.  So two finite numbers with one text are equal as numbers
(`beq_of_numberText_eq`).
-/
import Fluxion.Proofs.Numeral.Printed
import Fluxion.Proofs.Numeral.Signed
import Fluxion.Proofs.Numeral.Zero

namespace Fluxion.Numeral

/-! ## 1. Texts with an exponent read back -/

/-- A negative exponent is read as it was written. -/
theorem readExponent_exponentText (width : Nat) {e : ℤ} (he : e < 0) :
    readExponent (exponentText width e) = some e := by
  have hdigits : AllDigits (List.replicate (width - (Nat.toDigits 10 e.natAbs).length) '0' ++
      Nat.toDigits 10 e.natAbs) :=
    (allDigits_zeros _).append (allDigits_toDigits _)
  have hread : readDigits (List.replicate (width - (Nat.toDigits 10 e.natAbs).length) '0' ++
      Nat.toDigits 10 e.natAbs) = some e.natAbs := by
    rw [readDigits, if_pos ⟨by simp [Nat.toDigits_ne_nil], List.all_eq_true.mpr hdigits⟩,
      natOfDigits_zeros_append, natOfDigits_toDigits]
  have habs : -(e.natAbs : ℤ) = e := by omega
  have hletter : Char.toLower 'e' = 'e' := by decide
  rw [exponentText, if_pos he]
  simp only [readExponent, hletter, if_true, readSigned, splitSign, hread]
  exact congrArg some habs

/-- **A decimal in scientific notation is read as itself.** -/
theorem readDecimal_scientific (width : Nat) {d : Decimal} (hpoint : d.point - 1 < 0) :
    readDecimal (scientific width (Nat.toDigits 10 d.digits) (d.point - 1)) = some d := by
  have hexponent : d.exponent = d.point - (Nat.toDigits 10 d.digits).length := d.exponent_eq
  have hvalue : natOfDigits (Nat.toDigits 10 d.digits) = d.digits := natOfDigits_toDigits d.digits
  have hdigits : AllDigits (Nat.toDigits 10 d.digits) := allDigits_toDigits d.digits
  have hne : Nat.toDigits 10 d.digits ≠ [] := Nat.toDigits_ne_nil
  have hread := readExponent_exponentText width hpoint
  obtain ⟨rest, hrest⟩ : ∃ rest, exponentText width (d.point - 1) = 'e' :: rest := ⟨_, rfl⟩
  rw [hrest] at hread
  generalize Nat.toDigits 10 d.digits = digits at hexponent hvalue hdigits hne
  match digits with
  | [] => exact absurd rfl hne
  | [c] =>
    have hspan : (c :: 'e' :: rest).span Char.isDigit = ([c], 'e' :: rest) :=
      hdigits.span ('e' :: rest) (by simp)
    have hsame : d.point - 1 = d.exponent := by
      rw [hexponent, List.length_singleton, Nat.cast_one]
    have hd : Decimal.mk d.digits (d.point - 1) = d := congrArg (Decimal.mk d.digits) hsame
    simp only [scientific, hrest, readDecimal, hspan, splitFraction]
    simp [hvalue, hread, hd]
  | c :: c' :: more =>
    have hfirst : AllDigits [c] := fun a ha => hdigits a (by simp_all)
    have hmore : AllDigits (c' :: more) := fun a ha => hdigits a (List.mem_cons_of_mem c ha)
    have hspan : (c :: '.' :: (c' :: more ++ 'e' :: rest)).span Char.isDigit =
        ([c], '.' :: (c' :: more ++ 'e' :: rest)) :=
      hfirst.span ('.' :: (c' :: more ++ 'e' :: rest)) (by simp)
    have hspan' : (c' :: more ++ 'e' :: rest).span Char.isDigit = (c' :: more, 'e' :: rest) :=
      hmore.span ('e' :: rest) (by simp)
    have hsame : d.point - 1 - (more.length + 1 : ℤ) = d.exponent := by
      rw [hexponent, List.length_cons, List.length_cons]
      omega
    have hd : Decimal.mk d.digits (d.point - 1 - (more.length + 1)) = d :=
      congrArg (Decimal.mk d.digits) hsame
    simp only [scientific, hrest, readDecimal, hspan, splitFraction, hspan']
    simp [hvalue, hread, hd]

/-! ## 2. Texts of finite numbers -/

/-- A finite number without a sign. -/
structure IsCount (v : Float) : Prop where
  unsigned : Unsigned v
  finite : v ≠ infinity

theorem IsCount.isInf_eq_false {v : Float} (hv : IsCount v) : v.isInf = false := by
  cases hv.unsigned with
  | zero => rfl
  | infinite => exact absurd rfl hv.finite
  | finite h he => exact isInf_ofParts h he

theorem isCount_ofParts {m : Nat} {n : ℤ} (h : IsCanonical m n) (hn : n ≤ 971) :
    IsCount (ofParts m n h.pos) := by
  refine ⟨.finite h hn, fun hinfinite => ?_⟩
  have hfinite := isInf_ofParts h hn
  rw [hinfinite] at hfinite
  cases hfinite

/-- A character of the text of a finite number. -/
def isNumberChar (c : Char) : Bool := c.isDigit || c == '.' || c == 'e' || c == '-'

/-- The text begins with a digit and goes on with the characters of numbers. -/
structure IsNumberText (cs : List Char) : Prop where
  head : ∃ c rest, cs = c :: rest ∧ c.isDigit = true
  chars : ∀ c ∈ cs, isNumberChar c = true

theorem IsPlain.isNumberText {cs : List Char} (h : IsPlain cs) : IsNumberText cs :=
  ⟨h.head, h.forall (by decide) (by decide)⟩

theorem HasNegativeExponent.isNumberText {cs : List Char} (h : HasNegativeExponent cs) :
    IsNumberText cs := by
  obtain ⟨front, ds, hfront, -, hds, rfl⟩ := h
  obtain ⟨⟨c, rest, hcons, hc⟩, hchars⟩ := hfront.isNumberText
  refine ⟨⟨c, rest ++ 'e' :: '-' :: ds, by rw [hcons]; rfl, hc⟩, fun d hd => ?_⟩
  simp only [List.mem_append, List.mem_cons] at hd
  rcases hd with hd | rfl | rfl | hd
  · exact hchars d hd
  · rfl
  · rfl
  · simp [isNumberChar, hds d hd]

/-- A plain numeral is read back from its decimal. -/
theorem IsNumeralOf.readDecimal {v : Float} {cs : List Char} (h : IsNumeralOf v cs) :
    (readDecimal cs).map Decimal.toFloat = some v := by
  obtain ⟨⟨whole, fraction?, rfl, hne, hwhole, hfraction⟩, hread⟩ := h
  rw [readFloat_plain hne hwhole hfraction] at hread
  rw [readDecimal_plain hne hwhole hfraction]
  exact hread

/-- **The text of a finite number without a sign reads back as the number.** -/
theorem numberText_spec {v : Float} (hv : IsCount v) :
    ∃ cs, numberText v = String.ofList cs ∧ IsNumberText cs ∧
      (readDecimal cs).map Decimal.toFloat = some v := by
  by_cases hpositional : IsPositional v
  · obtain ⟨cs, htext, hnumeral⟩ := numberText_of_isPositional hv.unsigned hpositional
    exact ⟨cs, htext, hnumeral.1.isNumberText, hnumeral.readDecimal⟩
  · rcases eq_of_not_isPositional hv.unsigned hpositional with
      hinfinite | ⟨m, e, h, he, rfl, hnot, hsmall⟩
    · exact absurd hinfinite hv.finite
    · obtain ⟨hpoint, htext⟩ := numberText_eq_scientific h he hnot hsmall
      refine ⟨_, htext, (scientific_hasNegativeExponent _ _ (by omega)).isNumberText, ?_⟩
      rw [readDecimal_scientific 2 (by omega), Option.map_some, (shortest_spec h he).1]

/-- **Distinct finite numbers without a sign have distinct texts.** -/
theorem numberText_injective {v w : Float} (hv : IsCount v) (hw : IsCount w)
    (h : numberText v = numberText w) : v = w := by
  obtain ⟨cs, hcs, -, hv⟩ := numberText_spec hv
  obtain ⟨ds, hds, -, hw⟩ := numberText_spec hw
  rw [hcs, hds] at h
  rw [String.ofList_injective h, hw] at hv
  exact (Option.some.inj hv).symm

/-! ## 3. Texts of negated numbers -/

section

variable {m : Nat} {e : ℤ}

/-- A number is as integral as its negation. -/
theorem integral?_neg_ofParts (h : IsCanonical m e) (he : e ≤ 971) :
    integral? (-(ofParts m e h.pos)) = integral? (ofParts m e h.pos) := by
  rw [integral?, integral?, isFinite_neg_ofParts h he, isFinite_ofParts h he,
    magnitude_neg_ofParts h he]

/-- **The text of a negated number begins with a minus sign.** -/
theorem numberText_neg (h : IsCanonical m e) (he : e ≤ 971) :
    numberText (-(ofParts m e h.pos)) =
      String.ofList ('-' :: (numberText (ofParts m e h.pos)).toList) := by
  have hsign := isNegative_neg_ofParts h he
  cases hintegral : integral? (ofParts m e h.pos) with
  | some n =>
    have hn : n ≠ 0 := by
      have hvalue := value_of_integral h he hintegral
      have hpos := h.value_pos
      rw [← hvalue] at hpos
      exact_mod_cast hpos.ne'
    simp [numberText, integral?_neg_ofParts h he, hintegral, integralText, hsign,
      isNegative_ofParts h he, hn]
  | none =>
    have hshortest : shortest (-(ofParts m e h.pos)) = shortest (ofParts m e h.pos) := by
      rw [shortest, shortest, magnitude_neg_ofParts h he, abs_neg_ofParts h he, abs_ofParts h he]
    rw [numberText_of_not_integral h he hintegral, numberText, integral?_neg_ofParts h he,
      hintegral]
    simp only [decimalText, magnitudeText, isNaN_neg_ofParts h he, isInf_neg_ofParts h he,
      beq_zero_neg_ofParts h he, hsign, hshortest, Bool.false_eq_true, if_false, if_true,
      String.toList_ofList]

end

/-! ## 4. Texts of finite numbers with and without a sign -/

/-- The number is written as `w` is, and it is `w` or both are zero. -/
structure WrittenAs (v w : Float) : Prop where
  isCount : IsCount w
  text : numberText v = numberText w
  equal : v = w ∨ (v == 0.0) = true ∧ (w == 0.0) = true

/-- The number is the negation of a positive finite number. -/
inductive IsNegated : Float → Prop where
  | neg {m : Nat} {e : ℤ} (h : IsCanonical m e) : e ≤ 971 → IsNegated (-(ofParts m e h.pos))

theorem isNaN_of_isFinite {v : Float} (h : v.isFinite = true) : v.isNaN = false := by
  unfold Float.isFinite Float.Model.isFinite at h
  unfold Float.isNaN Float.Model.isNaN
  generalize v.toModel.unpack = u at h
  cases u with
  | notANumber => cases h
  | infinity s | zero s | finite s m e hm => rfl

/-- **A finite number is written as one without a sign, or negated.** -/
theorem writtenAs_or_isNegated {v : Float} (h : v.isFinite = true) :
    (∃ w, WrittenAs v w) ∨ IsNegated v := by
  rcases unsigned_or_negated (isNaN_of_isFinite h) with hunsigned | ⟨w, hunsigned, rfl⟩
  · refine Or.inl ⟨v, ⟨hunsigned, ?_⟩, rfl, Or.inl rfl⟩
    rintro rfl
    exact absurd h (by decide +kernel)
  · cases hunsigned with
    | zero =>
      have hcount : IsCount 0.0 := ⟨.zero, by decide +kernel⟩
      exact Or.inl ⟨0.0, hcount, by decide +kernel, Or.inr (by decide +kernel)⟩
    | infinite => exact absurd h (by decide +kernel)
    | finite hcan he => exact Or.inr (.neg hcan he)

/-- The text of a negated number is a minus sign in front of the text of the number. -/
theorem IsNegated.text {v : Float} (h : IsNegated v) :
    ∃ w, IsCount w ∧ v = -w ∧ numberText v = String.ofList ('-' :: (numberText w).toList) := by
  cases h with
  | neg hcan he => exact ⟨_, isCount_ofParts hcan he, rfl, numberText_neg hcan he⟩

/-- The text of a finite number begins with a digit or a minus sign, and goes on with the characters
of numbers. -/
theorem numberText_chars {v : Float} (h : v.isFinite = true) :
    ∃ c rest, numberText v = String.ofList (c :: rest) ∧ (c.isDigit = true ∨ c = '-') ∧
      ∀ d ∈ c :: rest, isNumberChar d = true := by
  rcases writtenAs_or_isNegated h with ⟨w, hw⟩ | hnegated
  · obtain ⟨cs, htext, ⟨⟨c, rest, rfl, hdigit⟩, hchars⟩, -⟩ := numberText_spec hw.isCount
    exact ⟨c, rest, hw.text.trans htext, Or.inl hdigit, hchars⟩
  · obtain ⟨w, hw, -, htext⟩ := hnegated.text
    obtain ⟨cs, hcs, ⟨-, hchars⟩, -⟩ := numberText_spec hw
    rw [hcs, String.toList_ofList] at htext
    refine ⟨'-', cs, htext, Or.inr rfl, fun d hd => ?_⟩
    rcases List.mem_cons.mp hd with rfl | hd
    · rfl
    · exact hchars d hd

/-- A text that begins with a digit does not begin with a minus sign. -/
theorem numberText_ne_negated {v w : Float} (hv : IsCount v) (hw : IsNegated w) :
    numberText v ≠ numberText w := by
  obtain ⟨cs, hcs, ⟨⟨c, rest, rfl, hdigit⟩, -⟩, -⟩ := numberText_spec hv
  obtain ⟨u, -, -, htext⟩ := hw.text
  rw [hcs, htext]
  intro hequal
  rw [(List.cons.inj (String.ofList_injective hequal)).1] at hdigit
  cases hdigit

/-- Every number is equal to itself. -/
theorem beq_self {v : Float} (h : v.isNaN = false) : (v == v) = true := by
  have hmodel : (v == v) = v.toModel.unpack.beq v.toModel.unpack := rfl
  rw [hmodel]
  unfold Float.isNaN Float.Model.isNaN at h
  generalize v.toModel.unpack = u at h
  cases u with
  | notANumber => cases h
  | infinity s | zero s => cases s <;> rfl
  | finite s m e hm =>
    cases s <;> simp [Float.Model.UnpackedFloat.beq, Float.Model.UnpackedFloat.compare]

theorem beq_of_zeros {v w : Float} (hv : (v == 0.0) = true) (hw : (w == 0.0) = true) :
    (v == w) = true := by
  obtain ⟨s, hs⟩ := beq_zero_iff.mp hv
  obtain ⟨t, ht⟩ := beq_zero_iff.mp hw
  have hmodel : (v == w) = v.toModel.unpack.beq w.toModel.unpack := rfl
  rw [hmodel, hs, ht]
  cases s <;> cases t <;> rfl

/-- **Finite numbers with one text are equal as numbers.** -/
theorem beq_of_numberText_eq {v w : Float} (hv : v.isFinite = true) (hw : w.isFinite = true)
    (h : numberText v = numberText w) : (v == w) = true := by
  have hself : (v == v) = true := beq_self (isNaN_of_isFinite hv)
  rcases writtenAs_or_isNegated hv with ⟨a, ha⟩ | hv'
  · rcases writtenAs_or_isNegated hw with ⟨b, hb⟩ | hw'
    · obtain rfl : a = b :=
        numberText_injective ha.isCount hb.isCount (ha.text.symm.trans (h.trans hb.text))
      rcases ha.equal with rfl | ⟨hzero, hzero'⟩
      · rcases hb.equal with rfl | ⟨hzero, hzero'⟩
        · exact hself
        · exact beq_of_zeros hzero' hzero
      · rcases hb.equal with rfl | ⟨hzero'', -⟩
        · exact beq_of_zeros hzero hzero'
        · exact beq_of_zeros hzero hzero''
    · exact absurd (ha.text.symm.trans h) (numberText_ne_negated ha.isCount hw')
  · rcases writtenAs_or_isNegated hw with ⟨b, hb⟩ | hw'
    · exact absurd (hb.text.symm.trans h.symm) (numberText_ne_negated hb.isCount hv')
    · obtain ⟨a, ha, rfl, htext⟩ := hv'.text
      obtain ⟨b, hb, rfl, htext'⟩ := hw'.text
      rw [htext, htext'] at h
      have hsame : numberText a = numberText b :=
        String.toList_injective (List.cons.inj (String.ofList_injective h)).2
      rw [numberText_injective ha hb hsame] at hself ⊢
      exact hself

end Fluxion.Numeral
