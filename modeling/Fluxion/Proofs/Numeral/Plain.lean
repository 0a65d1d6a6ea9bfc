/-
# Plain numerals

A plain numeral is a run of digits, and then, perhaps, a point and further digits: `3`, `3.`,
`3.25`.  This is the form of the numerals in a text.  `readFloat` allows much more around it
(blanks, a sign, an exponent, the digits of other scripts), none of which a plain numeral has, so
what it makes of a plain numeral is the decimal that its digits spell (`readFloat_plain`).  In
particular it never refuses one.
-/
import Fluxion.Numeral.Literal
import Mathlib.Data.List.TakeDrop

namespace Fluxion.Numeral

open Fluxion.Text

/-! ## 1. Digits -/

/-- The ten digits. -/
def digitChars : List Char := ['0', '1', '2', '3', '4', '5', '6', '7', '8', '9']

theorem mem_digitChars_of_isDigit {c : Char} (h : c.isDigit = true) : c ∈ digitChars := by
  have hc : c = Char.ofNat c.toNat := (Char.ofNat_toNat c).symm
  simp only [Char.isDigit, Bool.and_eq_true, decide_eq_true_eq] at h
  have hlow : 48 ≤ c.toNat := h.1
  have hhigh : c.toNat ≤ 57 := h.2
  generalize c.toNat = n at hc hlow hhigh
  obtain rfl | rfl | rfl | rfl | rfl | rfl | rfl | rfl | rfl | rfl :
      n = 48 ∨ n = 49 ∨ n = 50 ∨ n = 51 ∨ n = 52 ∨ n = 53 ∨ n = 54 ∨ n = 55 ∨ n = 56 ∨ n = 57 := by
    omega
  all_goals subst hc; decide

/-- What is tested for the ten digits holds of every digit. -/
theorem forall_digit {P : Char → Prop} [DecidablePred P]
    (h : (digitChars.all fun c => decide (P c)) = true) {c : Char} (hc : c.isDigit = true) : P c :=
  of_decide_eq_true (List.all_eq_true.mp h c (mem_digitChars_of_isDigit hc))

/-- Every character of the list is a digit. -/
def AllDigits (cs : List Char) : Prop := ∀ c ∈ cs, c.isDigit = true

theorem AllDigits.append {as bs : List Char} (ha : AllDigits as) (hb : AllDigits bs) :
    AllDigits (as ++ bs) := by
  intro c hc
  rcases List.mem_append.mp hc with hc | hc
  · exact ha c hc
  · exact hb c hc

/-- A run of digits is cut off whole in front of anything but a digit. -/
theorem AllDigits.span {ds : List Char} (hds : AllDigits ds) (rest : List Char)
    (hrest : ∀ c ∈ rest.head?, c.isDigit = false) :
    (ds ++ rest).span Char.isDigit = (ds, rest) := by
  rw [List.span_eq_takeWhile_dropWhile]
  induction ds with
  | nil =>
    cases rest with
    | nil => rfl
    | cons c rest => simp [hrest c rfl]
  | cons d ds ih =>
    have hd : d.isDigit = true := hds d List.mem_cons_self
    have htail := ih fun c hc => hds c (List.mem_cons_of_mem d hc)
    simp only [Prod.mk.injEq] at htail
    simp [hd, htail.1, htail.2]

/-! ## 2. Plain numerals -/

/-- Digits, and after a point further digits, if there is a point. -/
def plainNumeral (whole : List Char) : Option (List Char) → List Char
  | none => whole
  | some fraction => whole ++ '.' :: fraction

/-- The characters of a numeral with at least one digit in front and at most one point. -/
def IsPlain (cs : List Char) : Prop :=
  ∃ whole fraction?, cs = plainNumeral whole fraction? ∧ whole ≠ [] ∧ AllDigits whole ∧
    ∀ fraction ∈ fraction?, AllDigits fraction

/-- A character of a plain numeral is a digit or a point. -/
theorem mem_plainNumeral {whole : List Char} {fraction? : Option (List Char)}
    (hwhole : AllDigits whole) (hfraction : ∀ fraction ∈ fraction?, AllDigits fraction) {c : Char}
    (hc : c ∈ plainNumeral whole fraction?) : c.isDigit = true ∨ c = '.' := by
  cases fraction? with
  | none => exact Or.inl (hwhole c hc)
  | some fraction =>
    rcases List.mem_append.mp hc with hc | hc
    · exact Or.inl (hwhole c hc)
    · rcases List.mem_cons.mp hc with rfl | hc
      · exact Or.inr rfl
      · exact Or.inl (hfraction fraction rfl c hc)

/-- What is tested for the ten digits and for the point holds of the characters of a numeral. -/
theorem IsPlain.forall {P : Char → Prop} [DecidablePred P]
    (h : (digitChars.all fun c => decide (P c)) = true) (hpoint : P '.') {cs : List Char}
    (hcs : IsPlain cs) : ∀ c ∈ cs, P c := by
  obtain ⟨whole, fraction?, rfl, -, hwhole, hfraction⟩ := hcs
  intro c hc
  rcases mem_plainNumeral hwhole hfraction hc with hdigit | rfl
  · exact forall_digit h hdigit
  · exact hpoint

/-- A plain numeral begins with a digit. -/
theorem IsPlain.head {cs : List Char} (hcs : IsPlain cs) :
    ∃ d rest, cs = d :: rest ∧ d.isDigit = true := by
  obtain ⟨whole, fraction?, rfl, hne, hwhole, -⟩ := hcs
  obtain ⟨d, ds, rfl⟩ := List.exists_cons_of_ne_nil hne
  have hd : d.isDigit = true := hwhole d List.mem_cons_self
  cases fraction? with
  | none => exact ⟨d, ds, rfl, hd⟩
  | some fraction => exact ⟨d, ds ++ '.' :: fraction, rfl, hd⟩

/-! ## 3. Reading them -/

theorem trim_of_none {p : Char → Bool} {cs : List Char} (h : ∀ c ∈ cs, p c = false) :
    trim p cs = cs := by
  have hdrop : ∀ ds : List Char, (∀ c ∈ ds, p c = false) → ds.dropWhile p = ds := by
    intro ds hds
    cases ds with
    | nil => rfl
    | cons d ds => rw [List.dropWhile_cons, hds d List.mem_cons_self]; rfl
  rw [trim, hdrop cs h, hdrop cs.reverse (fun c hc => h c (List.mem_reverse.mp hc)),
    List.reverse_reverse]

theorem dropSeparators_of_none {last : Char} {cs : List Char} (hlast : last ≠ '_')
    (h : ∀ c ∈ cs, c ≠ '_') : dropSeparators last cs = some cs := by
  induction cs generalizing last with
  | nil => simp [dropSeparators, hlast]
  | cons c cs ih =>
    have hc : c ≠ '_' := h c List.mem_cons_self
    have htail := ih hc fun d hd => h d (List.mem_cons_of_mem c hd)
    simp [dropSeparators, hc, hlast, htail]

/-- A plain numeral has nothing around it, no other digits and no separators. -/
theorem IsPlain.numeralChars? {cs : List Char} (h : IsPlain cs) :
    numeralChars? (String.ofList cs) = some cs := by
  have hpadding : ∀ c ∈ cs, isPadding c = false := h.forall (by decide) (by decide)
  have hplain : ∀ c ∈ cs, plainDigit c = c := h.forall (by decide) (by decide)
  have hseparator : ∀ c ∈ cs, c ≠ '_' := h.forall (by decide) (by decide)
  have hmap : cs.map plainDigit = cs := by
    exact (List.map_congr_left hplain).trans (List.map_id' cs)
  rw [Numeral.numeralChars?, plainChars, String.toList_ofList, trim_of_none hpadding, hmap]
  exact dropSeparators_of_none (by decide) hseparator

/-- A plain numeral has no sign. -/
theorem IsPlain.splitSign {cs : List Char} (h : IsPlain cs) : splitSign cs = (false, cs) := by
  obtain ⟨d, rest, rfl, hd⟩ := h.head
  revert hd
  unfold Numeral.splitSign
  split
  · intro hd; simp_all
  · intro hd; simp_all
  · intro _; rfl

/-- A plain numeral is none of the words for infinity and for no number. -/
theorem IsPlain.ne_word {cs : List Char} (h : IsPlain cs) (c : Char) (word : List Char)
    (hc : (digitChars.all fun d => decide (d.toLower ≠ c)) = true) :
    String.ofList (cs.map Char.toLower) ≠ String.ofList (c :: word) := by
  obtain ⟨d, rest, rfl, hd⟩ := h.head
  intro heq
  have hlist := String.ofList_injective heq
  rw [List.map_cons] at hlist
  exact forall_digit (P := fun d => d.toLower ≠ c) hc hd (List.cons.inj hlist).1

/-- The decimal that a plain numeral spells. -/
def plainDecimal (whole : List Char) (fraction? : Option (List Char)) : Decimal :=
  ⟨natOfDigits (whole ++ fraction?.getD []), -((fraction?.getD []).length : Int)⟩

theorem readDecimal_plain {whole : List Char} {fraction? : Option (List Char)} (hne : whole ≠ [])
    (hwhole : AllDigits whole) (hfraction : ∀ fraction ∈ fraction?, AllDigits fraction) :
    readDecimal (plainNumeral whole fraction?) = some (plainDecimal whole fraction?) := by
  cases fraction? with
  | none =>
    have hspan := hwhole.span [] (by simp)
    rw [List.append_nil] at hspan
    simp only [readDecimal, plainNumeral, hspan, splitFraction, readExponent, List.append_nil]
    simp [hne, plainDecimal]
  | some fraction =>
    have hspan := hwhole.span ('.' :: fraction) (by simp)
    have hspan' := (hfraction fraction rfl).span [] (by simp)
    rw [List.append_nil] at hspan'
    simp only [readDecimal, plainNumeral, hspan, splitFraction, hspan', readExponent]
    simp [hne, plainDecimal]

/-- **A plain numeral is read as the decimal that it spells.** -/
theorem readFloat_plain {whole : List Char} {fraction? : Option (List Char)} (hne : whole ≠ [])
    (hwhole : AllDigits whole) (hfraction : ∀ fraction ∈ fraction?, AllDigits fraction) :
    readFloat (String.ofList (plainNumeral whole fraction?)) =
      some (plainDecimal whole fraction?).toFloat := by
  have hplain : IsPlain (plainNumeral whole fraction?) :=
    ⟨whole, fraction?, rfl, hne, hwhole, hfraction⟩
  have hinf := hplain.ne_word 'i' ['n', 'f'] (by decide)
  have hinfinity := hplain.ne_word 'i' ['n', 'f', 'i', 'n', 'i', 't', 'y'] (by decide)
  have hnan := hplain.ne_word 'n' ['a', 'n'] (by decide)
  have hunsigned : readUnsigned (plainNumeral whole fraction?) =
      some (plainDecimal whole fraction?).toFloat := by
    rw [readUnsigned, readDecimal_plain hne hwhole hfraction]
    simp_all
  simp [readFloat, hplain.numeralChars?, hplain.splitSign, hunsigned]

/-- No plain numeral is refused. -/
theorem IsPlain.readFloat {cs : List Char} (h : IsPlain cs) :
    ∃ v, readFloat (String.ofList cs) = some v := by
  obtain ⟨whole, fraction?, rfl, hne, hwhole, hfraction⟩ := h
  exact ⟨_, readFloat_plain hne hwhole hfraction⟩

end Fluxion.Numeral
