/-
# The shortest decimal stays nearby

The shortest decimal that reads back is looked for among the neighbours of the exact value on
grids of powers of ten.  Every grid that is tried contains the powers of ten around the value, so
no neighbour lies beyond them, and the decimal that is found lies between the same two powers as
the value (`IsNear`).  That is all the layout depends on.  The decimal reads back because this is
the test it passed; the exact value, which is given when no decimal passes, reads back because it
needs no rounding.
-/
import Fluxion.Numeral.Shortest
import Fluxion.Proofs.Numeral.Scientific
import Mathlib.Algebra.Order.Floor.Semifield

namespace Fluxion.Numeral

/-! ## 1. Ratios -/

namespace Ratio

/-- The exact value of a ratio. -/
def value (r : Ratio) : ℚ := (r.num : ℚ) / r.den

theorem value_inUnits (r : Ratio) (g : ℤ) : (r.inUnits g).value = r.value / 10 ^ g := by
  have hpos : (0 : ℚ) < 10 ^ (-g).toNat := by positivity
  rw [value, value, inUnits, zpow_eq_div (by norm_num) g]
  simp only [Nat.pow_eq]
  push_cast
  field_simp

/-- **The point of a ratio is the place of its first digit.** -/
theorem point_eq {r : Ratio} (hnum : r.num ≠ 0) (hden : r.den ≠ 0) :
    r.point = Int.log 10 r.value + 1 := by
  obtain ⟨hcount, hnumLow, hnumHigh⟩ := digitCount_bounds hnum
  obtain ⟨hcount', hdenLow, hdenHigh⟩ := digitCount_bounds hden
  have hnumPos : (0 : ℚ) < r.num := by exact_mod_cast Nat.pos_of_ne_zero hnum
  have hdenPos : (0 : ℚ) < r.den := by exact_mod_cast Nat.pos_of_ne_zero hden
  have hvalue : 0 < r.value := div_pos hnumPos hdenPos
  have hnumLow' : (10 : ℚ) ^ (digitCount r.num - 1) ≤ r.num := by exact_mod_cast hnumLow
  have hnumHigh' : (r.num : ℚ) < 10 ^ digitCount r.num := by exact_mod_cast hnumHigh
  have hdenLow' : (10 : ℚ) ^ (digitCount r.den - 1) ≤ r.den := by exact_mod_cast hdenLow
  have hdenHigh' : (r.den : ℚ) < 10 ^ digitCount r.den := by exact_mod_cast hdenHigh
  generalize hlow : (digitCount r.num : ℤ) - digitCount r.den = low
  have hbelow : (10 : ℚ) ^ (low - 1) ≤ r.value := by
    calc (10 : ℚ) ^ (low - 1) = 10 ^ (digitCount r.num - 1) / 10 ^ digitCount r.den :=
          (pow_div_pow (by norm_num) (by omega)).symm
      _ ≤ r.value := by
          unfold value
          gcongr
  have habove : r.value < 10 ^ (low + 1) := by
    calc r.value < 10 ^ digitCount r.num / 10 ^ (digitCount r.den - 1) :=
          div_lt_div₀ hnumHigh' hdenLow' (by positivity) (by positivity)
      _ = 10 ^ (low + 1) := pow_div_pow (by norm_num) (by omega)
  -- the comparison that decides between the two candidates is one of the values
  have htest : r.num * 10 ^ (-low).toNat < r.den * 10 ^ low.toNat ↔ r.value < 10 ^ low := by
    rw [value, zpow_eq_div (by norm_num) low, div_lt_div_iff₀ hdenPos (by positivity),
      mul_comm ((10 : ℚ) ^ low.toNat)]
    exact_mod_cast Iff.rfl
  unfold point
  simp only [Nat.pow_eq]
  rw [hlow]
  by_cases hless : r.value < 10 ^ low
  · have hlog : Int.log 10 r.value = low - 1 :=
      log_eq_of_bounds (by norm_num) hvalue (by exact_mod_cast hbelow)
        (by rw [sub_add_cancel]; exact_mod_cast hless)
    rw [if_pos (htest.mpr hless), hlog]
    omega
  · have hlog : Int.log 10 r.value = low :=
      log_eq_of_bounds (by norm_num) hvalue (by exact_mod_cast not_lt.mp hless)
        (by exact_mod_cast habove)
    rw [if_neg (htest.not.mpr hless), hlog]

end Ratio

/-! ## 2. Neighbours -/

/-- The decimal lies between the powers of ten around `x`. -/
structure IsNear (x : ℚ) (d : Decimal) : Prop where
  low : 10 ^ Int.log 10 x ≤ d.value
  high : d.value ≤ 10 ^ (Int.log 10 x + 1)

theorem IsNear.value_pos {x : ℚ} {d : Decimal} (h : IsNear x d) : 0 < d.value :=
  lt_of_lt_of_le (by positivity) h.low

theorem isNear_self {x : ℚ} {d : Decimal} (hx : 0 < x) (h : d.value = x) : IsNear x d := by
  have hlow : (10 : ℚ) ^ Int.log 10 x ≤ x := (le_log_ten_iff hx).mp le_rfl
  have hhigh : x < 10 ^ (Int.log 10 x + 1) := (log_ten_lt_iff hx).mp (by omega)
  exact ⟨h ▸ hlow, h ▸ hhigh.le⟩

/-- The neighbours on a grid are the points below and above. -/
theorem mem_neighbours {r : Ratio} {g : ℤ} {d : Decimal} (h : d ∈ neighbours r g) :
    ∃ j : Nat, d = ⟨j, g⟩ ∧
      (j = ⌊r.value / (10 : ℚ) ^ g⌋₊ ∨ j = ⌊r.value / (10 : ℚ) ^ g⌋₊ + 1) := by
  have hfloor : (r.inUnits g).num / (r.inUnits g).den = ⌊r.value / (10 : ℚ) ^ g⌋₊ := by
    rw [← Ratio.value_inUnits, Ratio.value, Nat.floor_div_eq_div]
  unfold neighbours at h
  simp only [hfloor] at h
  split at h
  · rcases List.mem_pair.mp h with rfl | rfl
    · exact ⟨_, rfl, Or.inl rfl⟩
    · exact ⟨_, rfl, Or.inr rfl⟩
  · rcases List.mem_pair.mp h with rfl | rfl
    · exact ⟨_, rfl, Or.inr rfl⟩
    · exact ⟨_, rfl, Or.inl rfl⟩

/-- On a grid that is not coarser than its first digit, a ratio has its neighbours nearby. -/
theorem isNear_of_mem_neighbours {r : Ratio} (hr : 0 < r.value) (n : Nat) {d : Decimal}
    (h : d ∈ neighbours r (Int.log 10 r.value - n)) : IsNear r.value d := by
  obtain ⟨j, rfl, hj⟩ := mem_neighbours h
  generalize hk : Int.log 10 r.value = k at hj ⊢
  have hlow : (10 : ℚ) ^ k ≤ r.value := (le_log_ten_iff hr).mp hk.ge
  have hhigh : r.value < (10 : ℚ) ^ (k + 1) := (log_ten_lt_iff hr).mp (by omega)
  have hgrid : (0 : ℚ) < 10 ^ (k - n) := by positivity
  have hfirst : (10 : ℚ) ^ n * 10 ^ (k - n) = 10 ^ k :=
    pow_mul_zpow (by norm_num) (by omega)
  have hnext : (10 : ℚ) ^ (n + 1) * 10 ^ (k - n) = 10 ^ (k + 1) :=
    pow_mul_zpow (by norm_num) (by omega)
  have hfloorLow : 10 ^ n ≤ ⌊r.value / (10 : ℚ) ^ (k - n)⌋₊ := by
    refine Nat.le_floor ?_
    rw [le_div_iff₀ hgrid]
    push_cast
    rw [hfirst]
    exact hlow
  have hfloorHigh : ⌊r.value / (10 : ℚ) ^ (k - n)⌋₊ < 10 ^ (n + 1) := by
    rw [Nat.floor_lt (by positivity), div_lt_iff₀ hgrid]
    push_cast
    rw [hnext]
    exact hhigh
  have hjLow : (10 : ℚ) ^ n ≤ j := by
    exact_mod_cast (by omega : 10 ^ n ≤ j)
  have hjHigh : (j : ℚ) ≤ 10 ^ (n + 1) := by
    exact_mod_cast (by omega : j ≤ 10 ^ (n + 1))
  constructor
  · rw [hk, ← hfirst]
    unfold Decimal.value
    gcongr
  · rw [hk, ← hnext]
    unfold Decimal.value
    gcongr

/-! ## 3. What does not change the value -/

namespace Decimal

theorem value_trimZeros (fuel : Nat) (d : Decimal) : (trimZeros fuel d).value = d.value := by
  induction fuel generalizing d with
  | zero => rfl
  | succ fuel ih =>
    rw [trimZeros]
    split
    · next hzero =>
      have hsplit : (d.digits : ℚ) = (d.digits / 10 : Nat) * 10 := by
        exact_mod_cast (by omega : d.digits = d.digits / 10 * 10)
      rw [ih, value, value, hsplit, zpow_add_one₀ (by norm_num)]
      ring
    · rfl

theorem value_normalise (d : Decimal) : d.normalise.value = d.value := by
  unfold normalise
  split
  · rfl
  · exact value_trimZeros _ d

end Decimal

namespace Magnitude

theorem value_ratio (m : Nat) (e : ℤ) :
    (Ratio.mk (Magnitude.mk m e).ratio.1 (Magnitude.mk m e).ratio.2).value = m * 2 ^ e := by
  rw [Ratio.value, zpow_eq_div (by norm_num) e]
  simp only [ratio, Nat.pow_eq]
  push_cast
  ring

/-- A magnitude has a finite decimal expansion. -/
theorem value_toDecimal (m : Nat) (e : ℤ) :
    (Magnitude.mk m e).toDecimal.value = m * 2 ^ e := by
  have hfive : (5 : ℚ) ^ (-e).toNat * 10 ^ min e 0 = (2 ^ (-e).toNat)⁻¹ := by
    have hmin : min e 0 = -((-e).toNat : ℤ) := by omega
    have hten : (10 : ℚ) ^ (-e).toNat = 2 ^ (-e).toNat * 5 ^ (-e).toNat := by
      rw [← mul_pow]
      norm_num
    rw [hmin, zpow_neg, zpow_natCast, hten]
    field_simp
  rw [Decimal.value, toDecimal, zpow_eq_div (by norm_num) e, div_eq_mul_inv, ← hfive]
  simp only [Nat.pow_eq]
  push_cast
  ring

end Magnitude

/-! ## 4. The shortest decimal -/

section

variable {m : Nat} {e : ℤ}

/-- A decimal that passes the test, or the exact value, reads back and is nearby. -/
theorem found_spec (h : IsCanonical m e) (he : e ≤ 971) {r : Ratio}
    (hr : r = ⟨(Magnitude.mk m e).ratio.1, (Magnitude.mk m e).ratio.2⟩) {d : Decimal}
    (hd : ((List.range 17).findSome? fun n =>
      withDigits? (fun d => d.toFloat == ofParts m e h.pos) r (n + 1)).getD
        (Magnitude.mk m e).toDecimal = d) :
    d.toFloat = ofParts m e h.pos ∧ IsNear (m * 2 ^ e) d := by
  have hvalue : r.value = m * 2 ^ e := by rw [hr, Magnitude.value_ratio]
  have hnum : r.num ≠ 0 := by
    rw [hr]
    exact Nat.mul_ne_zero h.pos.ne' (Nat.two_pow_pos _).ne'
  have hden : r.den ≠ 0 := by
    rw [hr]
    exact (Magnitude.ratio_den_pos _).ne'
  generalize hfound : ((List.range 17).findSome? fun n =>
    withDigits? (fun d => d.toFloat == ofParts m e h.pos) r (n + 1)) = found at hd
  cases found with
  | none =>
    have hexact : d.value = m * 2 ^ e := by
      rw [← hd]
      exact Magnitude.value_toDecimal m e
    exact ⟨Decimal.toFloat_of_value h he hexact, isNear_self h.value_pos hexact⟩
  | some d' =>
    obtain rfl : d' = d := hd
    obtain ⟨n, -, hn⟩ := List.exists_of_findSome?_eq_some hfound
    unfold withDigits? at hn
    have htest := List.find?_some hn
    have hmem := List.mem_of_find?_eq_some hn
    have hgrid : r.point - ((n + 1 : Nat) : ℤ) = Int.log 10 r.value - n := by
      rw [Ratio.point_eq hnum hden]
      push_cast
      ring
    rw [hgrid] at hmem
    have hnear := isNear_of_mem_neighbours (hvalue ▸ h.value_pos) n hmem
    rw [hvalue] at hnear
    exact ⟨(d'.toFloat_unsigned.beq_iff (.finite h he)).mp htest, hnear⟩

/-- **The shortest decimal reads back, and it lies between the powers of ten around the
number.** -/
theorem shortest_spec (h : IsCanonical m e) (he : e ≤ 971) :
    (shortest (ofParts m e h.pos)).toFloat = ofParts m e h.pos ∧
      IsNear (m * 2 ^ e) (shortest (ofParts m e h.pos)) := by
  unfold shortest
  simp only [magnitude_ofParts h he, abs_ofParts h he]
  generalize hd : ((List.range 17).findSome? _).getD _ = d
  obtain ⟨hfloat, hlow, hhigh⟩ := found_spec h he rfl hd
  refine ⟨?_, ?_, ?_⟩
  · rw [← hfloat]
    exact Decimal.toFloat_congr (Decimal.value_normalise d)
  · rw [Decimal.value_normalise]
    exact hlow
  · rw [Decimal.value_normalise]
    exact hhigh

end

end Fluxion.Numeral
