/-
# A fitted label keeps within the frame

Which labels cannot be fitted is a matter of zeros only (`fit_eq_error_iff`): the frame has to be
of negative size.  Where a label is fitted, it has been scaled at most twice and then moved, and
its dimensions are those that the scalings give (`fit_eq_ok`).

The factors are rounded, and so are the dimensions.  A label of 20 by 20 is scaled to a height of
6.400000000000001 in a frame of height 8, and eight tenths are less.  What can be promised is this
(`fit_keepsWithin`): a label with finite dimensions, none of them negative, can be fitted to such a
frame, neither of its dimensions grows, and it takes up nine tenths of the width and eight tenths of
the height at most, but for the errors of the operations.  These come to a part of `2 ^ (-51)`, and
to some of the least positive numbers, which matter only where the frame is next to nothing and the
factor loses most of its digits.
-/
import Fluxion.Animation.Frame
import Fluxion.Proofs.Numeral.Error

namespace Fluxion.Animation.Box

open Numeral

/-! ## 1. Labels that cannot be fitted -/

/-- A zero is too large for a limit that is negative. -/
theorem shrink?_eq_error_iff {size limit : Float} {x : FitError} :
    shrink? size limit = .error x ↔ limit < 0.0 ∧ (size == 0.0) = true := by
  cases x
  unfold shrink?
  cases hzero : size == 0.0 with
  | false => split <;> simp
  | true => simp [lt_iff_of_beq_zero hzero]

/-- **A label cannot be fitted** just when a dimension is zero and its limit is negative: the width,
or the height that the scaling to the width leaves. -/
theorem fit_eq_error_iff {frame b : Box} {x : FitError} :
    fit frame b = .error x ↔
      (frame.width * 0.9 < 0.0 ∧ (b.width == 0.0) = true) ∨
        ∃ first, shrink? b.width (frame.width * 0.9) = .ok first ∧
          frame.height * 0.8 < 0.0 ∧ ((b.adjusted first).height == 0.0) = true := by
  rw [← shrink?_eq_error_iff (x := x)]
  unfold fit
  cases hfirst : shrink? b.width (frame.width * 0.9) with
  | error y =>
    cases x
    cases y
    simp [bind, Except.bind]
  | ok first =>
    simp only [← shrink?_eq_error_iff (x := x), Except.ok.injEq, exists_eq_left', reduceCtorEq,
      false_or]
    cases hsecond : shrink? (b.adjusted first).height (frame.height * 0.8) <;>
      simp [bind, Except.bind, hsecond, pure, Except.pure]

/-! ## 2. What is done to a label -/

/-- The two factors, if there are any, and what they make of the label. -/
theorem fit_of_shrunk {frame b : Box} {first second : Option Float}
    (hfirst : shrink? b.width (frame.width * 0.9) = .ok first)
    (hsecond : shrink? (b.adjusted first).height (frame.height * 0.8) = .ok second) :
    fit frame b = .ok ((first.toList ++ second.toList).map .scale ++ [.moveToCentre],
      (b.adjusted first).adjusted second) := by
  simp only [fit, bind, Except.bind, hfirst, hsecond, pure, Except.pure]

/-- **A label is fitted** by at most two scalings and a move, and its dimensions are then those that
the scalings give. -/
theorem fit_eq_ok {frame b fitted : Box} {adjustments : List Adjustment}
    (h : fit frame b = .ok (adjustments, fitted)) :
    ∃ factors : List Float, factors.length ≤ 2 ∧
      adjustments = factors.map .scale ++ [.moveToCentre] ∧ fitted = factors.foldl scale b := by
  cases hfirst : shrink? b.width (frame.width * 0.9) with
  | error x =>
    rw [fit, hfirst] at h
    cases h
  | ok first =>
    cases hsecond : shrink? (b.adjusted first).height (frame.height * 0.8) with
    | error x => simp [fit, bind, Except.bind, hfirst, hsecond] at h
    | ok second =>
      rw [fit_of_shrunk hfirst hsecond] at h
      obtain ⟨rfl, rfl⟩ := Prod.mk.inj (Except.ok.inj h)
      refine ⟨first.toList ++ second.toList, ?_, rfl, ?_⟩
      · cases first <;> cases second <;> simp
      · cases first <;> cases second <;> rfl

/-! ## 3. One dimension -/

/-- What a dimension measures after it is fitted: no more than before, and no more than it is
allowed, but for the errors of the limit, of the factor and of the product. -/
structure KeepsWithin (allowed size fitted : ℚ) : Prop where
  le_size : fitted ≤ size
  le_allowed : fitted ≤ allowed * (1 + 2 ^ (-51 : ℤ)) + (size + 2) * 2 ^ (-1074 : ℤ)

theorem KeepsWithin.of_le {allowed size size' fitted fitted' : ℚ}
    (h : KeepsWithin allowed size fitted) (hsize : size ≤ size') (hfitted : fitted' ≤ fitted) :
    KeepsWithin allowed size' fitted' := by
  refine ⟨(hfitted.trans h.le_size).trans hsize, (hfitted.trans h.le_allowed).trans ?_⟩
  gcongr

/-- A share of the frame, and the share that is meant. -/
structure IsShare (share : Float) (meant : ℚ) : Prop where
  nonneg : 0 ≤ meant
  near : ∃ s, IsSize share s ∧ s ≤ 1 ∧ s ≤ meant * (1 + 2 ^ (-54 : ℤ))

/-- A limit that is computed as a share of the frame, and what it stands for. -/
structure IsLimit (limit : Float) (allowed value : ℚ) : Prop where
  isSize : IsSize limit value
  nonneg : 0 ≤ allowed
  near : value ≤ allowed * ((1 + 2 ^ (-54 : ℤ)) * (1 + 2 ^ (-53 : ℤ))) + 2 ^ (-1075 : ℤ)

/-- The factor, if there is one, makes nothing larger. -/
def Reduces (factor? : Option Float) : Prop := ∀ f ∈ factor?, ∃ z, IsSize f z ∧ z ≤ 1

/-- The dimension after an adjustment, if there is one. -/
def adjust (size : Float) : Option Float → Float
  | some factor => size * factor
  | none => size

@[simp] theorem width_adjusted (b : Box) (factor? : Option Float) :
    (b.adjusted factor?).width = adjust b.width factor? := by
  cases factor? <;> rfl

@[simp] theorem height_adjusted (b : Box) (factor? : Option Float) :
    (b.adjusted factor?).height = adjust b.height factor? := by
  cases factor? <;> rfl

theorem isShare_of_eq {share : Float} {meant : ℚ} {m : Nat} {e : ℤ} (h : IsCanonical m e)
    (he : e ≤ 971) (hshare : share = ofParts m e h.pos) (hone : (m : ℚ) * 2 ^ e ≤ 1)
    (hmeant : 0 ≤ meant) (hnear : (m : ℚ) * 2 ^ e ≤ meant * (1 + 2 ^ (-54 : ℤ))) :
    IsShare share meant :=
  ⟨hmeant, _, hshare ▸ (HasSize.finite h he).isSize, hone, hnear⟩

theorem isCanonical_nineTenths : IsCanonical 8106479329266893 (-53) :=
  ⟨by norm_num, by norm_num, by norm_num, Or.inl (by norm_num)⟩

theorem isShare_nineTenths : IsShare 0.9 (9 / 10) :=
  isShare_of_eq isCanonical_nineTenths (by norm_num) (by decide +kernel) (by norm_num)
    (by norm_num) (by norm_num)

theorem isCanonical_eightTenths : IsCanonical 7205759403792794 (-53) :=
  ⟨by norm_num, by norm_num, by norm_num, Or.inl (by norm_num)⟩

theorem isShare_eightTenths : IsShare 0.8 (8 / 10) :=
  isShare_of_eq isCanonical_eightTenths (by norm_num) (by decide +kernel) (by norm_num)
    (by norm_num) (by norm_num)

theorem IsShare.isLimit {extent share : Float} {meant f : ℚ} (h : IsShare share meant)
    (hextent : IsSize extent f) : ∃ value, IsLimit (extent * share) (meant * f) value := by
  have hf : 0 ≤ f := hextent.2
  obtain ⟨hmeant, s, hs, hone, hnear⟩ := h
  obtain ⟨value, hvalue, -, herror⟩ := hextent.mul hs hextent (mul_le_of_le_one_right hf hone)
  refine ⟨value, hvalue, mul_nonneg hmeant hf, ?_⟩
  calc value ≤ f * s + slack (f * s) := by linarith [(abs_le.mp herror).2]
    _ = f * s * (1 + 2 ^ (-53 : ℤ)) + 2 ^ (-1075 : ℤ) := by unfold slack; ring
    _ ≤ f * (meant * (1 + 2 ^ (-54 : ℤ))) * (1 + 2 ^ (-53 : ℤ)) + 2 ^ (-1075 : ℤ) := by gcongr
    _ = _ := by ring

/-- The least positive number, from the error of one operation. -/
theorem least_eq : (2 : ℚ) ^ (-1074 : ℤ) = 2 * 2 ^ (-1075 : ℤ) := by
  linarith [half_zpow (-1074)]

/-- The errors of the three operations add up. -/
theorem scaled_le {allowed limit size factor scaled : ℚ} (hallowed : 0 ≤ allowed)
    (hsize : 0 < size)
    (hlimit : limit ≤ allowed * ((1 + 2 ^ (-54 : ℤ)) * (1 + 2 ^ (-53 : ℤ))) + 2 ^ (-1075 : ℤ))
    (hfactor : factor ≤ limit / size + slack (limit / size))
    (hscaled : scaled ≤ size * factor + slack (size * factor)) :
    scaled ≤ allowed * (1 + 2 ^ (-51 : ℤ)) + (size + 2) * 2 ^ (-1074 : ℤ) := by
  have hη : (0 : ℚ) ≤ 2 ^ (-1075 : ℤ) := by positivity
  unfold slack at hfactor hscaled
  rw [least_eq]
  generalize (2 : ℚ) ^ (-1075 : ℤ) = η at *
  have hproduct : size * factor ≤
      (allowed * ((1 + 2 ^ (-54 : ℤ)) * (1 + 2 ^ (-53 : ℤ))) + η) * (1 + 2 ^ (-53 : ℤ)) +
        size * η := by
    calc size * factor ≤ size * (limit / size + (limit / size * 2 ^ (-53 : ℤ) + η)) := by gcongr
      _ = size * (limit / size) * (1 + 2 ^ (-53 : ℤ)) + size * η := by ring
      _ = limit * (1 + 2 ^ (-53 : ℤ)) + size * η := by rw [mul_div_cancel₀ _ hsize.ne']
      _ ≤ _ := by gcongr
  calc scaled ≤ size * factor * (1 + 2 ^ (-53 : ℤ)) + η := by linarith
    _ ≤ ((allowed * ((1 + 2 ^ (-54 : ℤ)) * (1 + 2 ^ (-53 : ℤ))) + η) * (1 + 2 ^ (-53 : ℤ)) +
          size * η) * (1 + 2 ^ (-53 : ℤ)) + η := by gcongr
    _ = allowed * ((1 + 2 ^ (-54 : ℤ)) * (1 + 2 ^ (-53 : ℤ)) ^ 3) +
          η * ((1 + 2 ^ (-53 : ℤ)) ^ 2 + 1) + size * η * (1 + 2 ^ (-53 : ℤ)) := by ring
    _ ≤ allowed * (1 + 2 ^ (-51 : ℤ)) + η * 4 + size * η * 2 := by
        gcongr <;> norm_num
    _ = allowed * (1 + 2 ^ (-51 : ℤ)) + (size + 2) * (2 * η) := by ring

/-- The error of the limit is the least of them. -/
theorem limit_le {allowed size : ℚ} (hallowed : 0 ≤ allowed) (hsize : 0 ≤ size) :
    allowed * ((1 + 2 ^ (-54 : ℤ)) * (1 + 2 ^ (-53 : ℤ))) + 2 ^ (-1075 : ℤ) ≤
      allowed * (1 + 2 ^ (-51 : ℤ)) + (size + 2) * 2 ^ (-1074 : ℤ) := by
  have hη : (0 : ℚ) ≤ 2 ^ (-1075 : ℤ) := by positivity
  rw [least_eq]
  generalize (2 : ℚ) ^ (-1075 : ℤ) = η at *
  gcongr
  · norm_num
  · nlinarith [mul_nonneg hsize hη]

/-- What makes nothing larger makes no dimension larger. -/
theorem Reduces.size {factor? : Option Float} (h : Reduces factor?) {v : Float} {p : ℚ}
    (hv : IsSize v p) : ∃ q, IsSize (adjust v factor?) q ∧ q ≤ p := by
  cases factor? with
  | none => exact ⟨p, hv, le_rfl⟩
  | some f =>
    obtain ⟨z, hz, hone⟩ := h f rfl
    obtain ⟨q, hq, hle, -⟩ := hv.mul hz hv (mul_le_of_le_one_right hv.2 hone)
    exact ⟨q, hq, hle⟩

/-- **A dimension that is shrunk to its limit** keeps within what it is allowed. -/
theorem shrink?_keepsWithin {v limit : Float} {p allowed value : ℚ} (hv : IsSize v p)
    (hlimit : IsLimit limit allowed value) :
    ∃ factor? q, shrink? v limit = .ok factor? ∧ Reduces factor? ∧
      IsSize (adjust v factor?) q ∧ KeepsWithin allowed p q := by
  have hone : IsSize 1.0 1 := ⟨by simpa using realOf?_one, zero_le_one⟩
  unfold shrink?
  by_cases hlarge : limit < v
  · have hless : value < p := (hlimit.isSize.lt_iff hv).mp hlarge
    have hpos : 0 < p := hlimit.isSize.2.trans_lt hless
    have hzero : (v == 0.0) = false := by
      rw [← Bool.not_eq_true, hv.beq_zero_iff]
      exact hpos.ne'
    obtain ⟨z, hz, hzone, hzerror⟩ :=
      hlimit.isSize.div hv hpos hone ((div_le_one hpos).mpr hless.le)
    obtain ⟨q, hq, hle, hqerror⟩ := hv.mul hz hv (mul_le_of_le_one_right hv.2 hzone)
    have hfactor : z ≤ value / p + slack (value / p) := by linarith [(abs_le.mp hzerror).2]
    have hscaled : q ≤ p * z + slack (p * z) := by linarith [(abs_le.mp hqerror).2]
    refine ⟨some (limit / v), q, by simp [hlarge, hzero], ?_, hq, hle, ?_⟩
    · rintro f ⟨rfl⟩
      exact ⟨z, hz, hzone⟩
    · exact scaled_le hlimit.nonneg hpos hlimit.near hfactor hscaled
  · have hle : p ≤ value := not_lt.mp (mt (hlimit.isSize.lt_iff hv).mpr hlarge)
    refine ⟨none, p, if_neg hlarge, by simp [Reduces], hv, le_rfl, hle.trans ?_⟩
    exact hlimit.near.trans (limit_le hlimit.nonneg hv.2)

/-! ## 4. Both dimensions -/

/-- **A fitted label keeps within the frame.**  Whatever the sizes of the label and of the frame
are, the label is fitted, neither of its dimensions grows, and it takes up nine tenths of the width
and eight tenths of the height of the frame at most, but for the errors of the operations. -/
theorem fit_keepsWithin {frame b : Box} {f g w h : ℚ} (hf : IsSize frame.width f)
    (hg : IsSize frame.height g) (hw : IsSize b.width w) (hh : IsSize b.height h) :
    ∃ adjustments fitted w' h', fit frame b = .ok (adjustments, fitted) ∧
      IsSize fitted.width w' ∧ IsSize fitted.height h' ∧
      KeepsWithin (9 / 10 * f) w w' ∧ KeepsWithin (8 / 10 * g) h h' := by
  obtain ⟨_, hwidth⟩ := isShare_nineTenths.isLimit hf
  obtain ⟨_, hheight⟩ := isShare_eightTenths.isLimit hg
  obtain ⟨first, w₁, hfirst, hreduces, hw₁, hkeeps⟩ := shrink?_keepsWithin hw hwidth
  obtain ⟨h₁, hh₁, hle⟩ := hreduces.size hh
  rw [← height_adjusted] at hh₁
  obtain ⟨second, h₂, hsecond, hreduces', hh₂, hkeeps'⟩ := shrink?_keepsWithin hh₁ hheight
  obtain ⟨w₂, hw₂, hle'⟩ := hreduces'.size hw₁
  rw [← width_adjusted, ← width_adjusted] at hw₂
  rw [← height_adjusted] at hh₂
  exact ⟨_, _, w₂, h₂, fit_of_shrunk hfirst hsecond, hw₂, hh₂, hkeeps.of_le le_rfl hle',
    hkeeps'.of_le hle le_rfl⟩

/-- In a frame of 14 by 8, a label of 20 by 20 ends up a little too high. -/
example : (fit ⟨14, 8⟩ ⟨20, 20⟩).map (fun r => decide (6.4 < r.2.height)) = .ok true := by
  decide +kernel

end Fluxion.Animation.Box
