import Mathlib
import CacheMeter.Binary64

/-!
# Bounds on rounded values

Rounding to the nearest double never passes a double.  Rounding a count up may pass the
count, but then a product with a fraction below one is rounded down again: the gap to the
double below is at least as large as what was gained.

Main results:

- Theorems `two_zpow_exponent_le` and `lt_two_zpow_exponent`: the exponent brackets its
  argument.
- Theorems `nearest_le` and `le_nearest`: rounding does not pass a double.
- Theorem `nearest_mono`: rounding keeps the order.
- Theorem `nearest_div_le`: the rounded quotient of two different rounded counts, the smaller by
  the larger, is a double below one.
- Theorem `nearest_mul_le`: a rounded count times a double below one, rounded, is at most
  the count.
-/

namespace CacheMeter.Binary64

/-! ## Exponents -/

/-- The estimate from the bit lengths is off by less than one binade. -/
theorem exponent_estimate {x : Rat} (hx : 0 < x) :
    (2 : Rat) ^ ((x.num.toNat.log2 : Int) - x.den.log2 - 1) ≤ x ∧
      x < (2 : Rat) ^ ((x.num.toNat.log2 : Int) - x.den.log2 + 1) := by
  have hnum : 0 < x.num := Rat.num_pos.mpr hx
  have hnonzero : x.num.toNat ≠ 0 := by omega
  have hcast : ((x.num.toNat : Nat) : Rat) = x.num := by
    exact_mod_cast Int.toNat_of_nonneg hnum.le
  have hvalue : x = x.num.toNat / x.den := by
    rw [hcast]
    exact (Rat.num_div_den x).symm
  have hden : (0 : Rat) < x.den := by exact_mod_cast x.den_pos
  have hnumLow : (2 : Rat) ^ (x.num.toNat.log2 : Int) ≤ x.num.toNat := by
    exact_mod_cast Nat.log2_self_le hnonzero
  have hnumHigh : (x.num.toNat : Rat) < 2 ^ ((x.num.toNat.log2 : Int) + 1) := by
    exact_mod_cast Nat.lt_log2_self (n := x.num.toNat)
  have hdenLow : (2 : Rat) ^ (x.den.log2 : Int) ≤ x.den := by
    exact_mod_cast Nat.log2_self_le x.den_nz
  have hdenHigh : (x.den : Rat) < 2 ^ ((x.den.log2 : Int) + 1) := by
    exact_mod_cast Nat.lt_log2_self (n := x.den)
  generalize x.num.toNat.log2 = a at *
  generalize x.den.log2 = b at *
  constructor
  · calc (2 : Rat) ^ ((a : Int) - b - 1) = 2 ^ (a : Int) / 2 ^ ((b : Int) + 1) := by
          rw [← zpow_sub₀ (by norm_num)]
          congr 1
          ring
      _ ≤ x.num.toNat / x.den := by gcongr
      _ = x := hvalue.symm
  · calc x = x.num.toNat / x.den := hvalue
      _ < 2 ^ ((a : Int) + 1) / 2 ^ (b : Int) := by gcongr
      _ = (2 : Rat) ^ ((a : Int) - b + 1) := by
          rw [← zpow_sub₀ (by norm_num)]
          congr 1
          ring

theorem two_zpow_exponent_le {x : Rat} (hx : 0 < x) : (2 : Rat) ^ exponent x ≤ x := by
  unfold exponent
  dsimp only
  split_ifs with h
  · exact h
  · exact (exponent_estimate hx).1

theorem lt_two_zpow_exponent {x : Rat} (hx : 0 < x) : x < (2 : Rat) ^ (exponent x + 1) := by
  unfold exponent
  dsimp only
  split_ifs with h
  · exact (exponent_estimate hx).2
  · rw [sub_add_cancel]
    exact not_le.mp h

/-- No other exponent brackets the argument. -/
theorem exponent_eq {x : Rat} {e : Int} (hlow : (2 : Rat) ^ e ≤ x)
    (hhigh : x < (2 : Rat) ^ (e + 1)) : exponent x = e := by
  have hx : 0 < x := lt_of_lt_of_le (by positivity) hlow
  have h₁ : e < exponent x + 1 := by
    have hlt := hlow.trans_lt (lt_two_zpow_exponent hx)
    exact (zpow_lt_zpow_iff_right₀ (by norm_num)).mp hlt
  have h₂ : exponent x < e + 1 := by
    have hlt := (two_zpow_exponent_le hx).trans_lt hhigh
    exact (zpow_lt_zpow_iff_right₀ (by norm_num)).mp hlt
  omega

/-- A larger argument has no smaller exponent. -/
theorem exponent_mono {x y : Rat} (hx : 0 < x) (h : x ≤ y) : exponent x ≤ exponent y := by
  have hlt : (2 : Rat) ^ exponent x < 2 ^ (exponent y + 1) :=
    (two_zpow_exponent_le hx).trans_lt (h.trans_lt (lt_two_zpow_exponent (hx.trans_le h)))
  exact Int.lt_add_one_iff.mp ((zpow_lt_zpow_iff_right₀ (by norm_num)).mp hlt)

/-- The spacing of doubles is positive. -/
theorem spacing_pos (x : Rat) : 0 < spacing x := by
  unfold spacing
  positivity

/-- There are `2 ^ 52` gaps below the first power of two at or below the argument. -/
theorem mul_spacing (x : Rat) : 2 ^ 52 * spacing x = 2 ^ exponent x := by
  unfold spacing
  rw [← zpow_natCast, ← zpow_add₀ (by norm_num)]
  norm_num

/-- The same count as an integer, the form in which multiples of the spacing are counted. -/
theorem intCast_mul_spacing (x : Rat) : ((2 ^ 52 : Int) : Rat) * spacing x = 2 ^ exponent x := by
  rw [← mul_spacing]
  norm_num

theorem mul_spacing_succ (x : Rat) : 2 ^ 53 * spacing x = 2 ^ (exponent x + 1) := by
  have h := mul_spacing x
  rw [zpow_add₀ (by norm_num), zpow_one, ← h]
  ring

/-! ## Rounding to an integer -/

/-- Below the middle of the gap after `n`, rounding does not pass `n`. -/
theorem roundHalfEven_le {x : Rat} {n : Int} (h : x < n + 1 / 2) : roundHalfEven x ≤ n := by
  have hfloor : (x.floor : Rat) ≤ x := Rat.floor_le x
  have hle : x.floor ≤ n := by
    have hlt : (x.floor : Rat) < n + 1 := by linarith
    have hcast : x.floor < n + 1 := by exact_mod_cast hlt
    omega
  by_cases hsame : x.floor = n
  · have hfraction : x - x.floor < 1 / 2 := by
      rw [hsame]
      linarith
    unfold roundHalfEven
    dsimp only
    rw [if_pos hfraction]
    exact hle
  · unfold roundHalfEven
    dsimp only
    split_ifs <;> omega

/-- Rounding does not fall below an integer. -/
theorem le_roundHalfEven {x : Rat} {n : Int} (h : n ≤ x) : n ≤ roundHalfEven x := by
  have hle : n ≤ x.floor := Rat.le_floor_iff.mpr h
  unfold roundHalfEven
  dsimp only
  split_ifs <;> omega

/-- Rounding moves up by at most a half. -/
theorem roundHalfEven_le_add_half (x : Rat) : (roundHalfEven x : Rat) ≤ x + 1 / 2 := by
  have hfloor : (x.floor : Rat) ≤ x := Rat.floor_le x
  unfold roundHalfEven
  dsimp only
  split_ifs with h₁ h₂ h₃
  · linarith
  · push_cast
    linarith
  · linarith
  · push_cast
    linarith

/-- Rounding to an integer keeps the order. -/
theorem roundHalfEven_mono {x y : Rat} (h : x ≤ y) : roundHalfEven x ≤ roundHalfEven y := by
  have hfloor : x.floor ≤ y.floor := Rat.le_floor_iff.mpr ((Rat.floor_le x).trans h)
  rcases hfloor.lt_or_eq with hlt | hsame
  · calc roundHalfEven x ≤ x.floor + 1 := by
          unfold roundHalfEven
          dsimp only
          split_ifs <;> omega
      _ ≤ y.floor := hlt
      _ ≤ roundHalfEven y := le_roundHalfEven (Rat.floor_le y)
  · -- Above the same integer, only the fractions differ.
    unfold roundHalfEven
    dsimp only
    rw [hsame]
    split_ifs <;> first | omega | linarith

/-! ## Rounding to a double -/

/-- The nearest double is a whole number of spacings. -/
theorem nearest_of_pos {x : Rat} (hx : 0 < x) :
    nearest x = roundHalfEven (x / spacing x) * spacing x := by
  rw [nearest, if_neg (not_le.mpr hx)]

/-- Below the middle of the gap after a multiple of the spacing, rounding does not pass
it. -/
theorem nearest_le_of_lt_half {x : Rat} (hx : 0 < x) {n : Int}
    (h : x < (n + 1 / 2) * spacing x) : nearest x ≤ n * spacing x := by
  have hspacing := spacing_pos x
  have hquotient : x / spacing x < n + 1 / 2 := (div_lt_iff₀ hspacing).mpr h
  have hround : (roundHalfEven (x / spacing x) : Rat) ≤ n := by
    exact_mod_cast roundHalfEven_le hquotient
  rw [nearest_of_pos hx]
  exact mul_le_mul_of_nonneg_right hround hspacing.le

/-- Rounding up stops at the next multiple of the spacing. -/
theorem nearest_le_of_le {x : Rat} (hx : 0 < x) {n : Int} (h : x ≤ n * spacing x) :
    nearest x ≤ n * spacing x := by
  apply nearest_le_of_lt_half hx
  have hspacing := spacing_pos x
  linarith

/-- Rounding down stops there, too. -/
theorem le_nearest_of_le {x : Rat} (hx : 0 < x) {n : Int} (h : n * spacing x ≤ x) :
    n * spacing x ≤ nearest x := by
  have hspacing := spacing_pos x
  have hquotient : (n : Rat) ≤ x / spacing x := (le_div_iff₀ hspacing).mpr h
  have hround : (n : Rat) ≤ roundHalfEven (x / spacing x) := by
    exact_mod_cast le_roundHalfEven hquotient
  rw [nearest_of_pos hx]
  exact mul_le_mul_of_nonneg_right hround hspacing.le

/-- A double whose exponent is not below the spacing of `x` is a multiple of it. -/
theorem double_eq_mul_spacing (x : Rat) {k : Nat} {j : Int} (hj : exponent x - 52 ≤ j) :
    (k : Rat) * 2 ^ j = ((k * 2 ^ (j - (exponent x - 52)).toNat : Nat) : Int) * spacing x := by
  have hshift : j = ((j - (exponent x - 52)).toNat : Int) + (exponent x - 52) := by omega
  generalize (j - (exponent x - 52)).toNat = shift at *
  rw [spacing, hshift, zpow_add₀ (by norm_num), zpow_natCast]
  push_cast
  ring

/-- A double with an exponent below the spacing of `x` is below the binade of `x`. -/
theorem double_le_two_zpow (x : Rat) {k : Nat} {j : Int} (hk : k ≤ 2 ^ 53)
    (hj : j < exponent x - 52) : (k : Rat) * 2 ^ j ≤ 2 ^ exponent x := by
  have hcast : (k : Rat) ≤ 2 ^ (53 : Int) := by exact_mod_cast hk
  calc (k : Rat) * 2 ^ j ≤ 2 ^ (53 : Int) * 2 ^ (exponent x - 53) := by
        gcongr
        · norm_num
        · omega
    _ = 2 ^ exponent x := by
        rw [← zpow_add₀ (by norm_num)]
        congr 1
        ring

/-- Rounding does not pass a double above. -/
theorem nearest_le {x : Rat} {k : Nat} {j : Int} (hk : k ≤ 2 ^ 53) (h : x ≤ k * 2 ^ j) :
    nearest x ≤ k * 2 ^ j := by
  by_cases hx : x ≤ 0
  · rw [nearest_of_nonpos hx]
    positivity
  have hpos : 0 < x := not_le.mp hx
  by_cases hj : exponent x - 52 ≤ j
  · rw [double_eq_mul_spacing x hj] at h ⊢
    exact nearest_le_of_le hpos h
  · -- Such a double can only be above `x` where `x` is a power of two itself.
    have hdouble := double_le_two_zpow x hk (not_le.mp hj)
    have hexact : x ≤ ((2 ^ 52 : Int) : Rat) * spacing x := by
      rw [intCast_mul_spacing]
      exact h.trans hdouble
    have hle := nearest_le_of_le hpos hexact
    rw [intCast_mul_spacing] at hle
    exact hle.trans ((two_zpow_exponent_le hpos).trans h)

/-- Rounding does not pass a double below. -/
theorem le_nearest {x : Rat} {k : Nat} {j : Int} (hx : 0 < x) (hk : k ≤ 2 ^ 53)
    (h : k * 2 ^ j ≤ x) : k * 2 ^ j ≤ nearest x := by
  by_cases hj : exponent x - 52 ≤ j
  · rw [double_eq_mul_spacing x hj] at h ⊢
    exact le_nearest_of_le hx h
  · have hdouble := double_le_two_zpow x hk (not_le.mp hj)
    have hexact : ((2 ^ 52 : Int) : Rat) * spacing x ≤ x := by
      rw [intCast_mul_spacing]
      exact two_zpow_exponent_le hx
    have hle := le_nearest_of_le hx hexact
    rw [intCast_mul_spacing] at hle
    exact hdouble.trans hle

/-- Rounding to a double keeps the order. -/
theorem nearest_mono {x y : Rat} (h : x ≤ y) : nearest x ≤ nearest y := by
  by_cases hx : x ≤ 0
  · rw [nearest_of_nonpos hx]
    by_cases hy : y ≤ 0
    · rw [nearest_of_nonpos hy]
    · have hle := le_nearest (not_le.mp hy) (k := 0) (j := 0) (by norm_num)
        (by simpa using (not_le.mp hy).le)
      simpa using hle
  have hpos : 0 < x := not_le.mp hx
  rcases (exponent_mono hpos h).lt_or_eq with hlt | hsame
  · -- There is a power of two between them.
    have hhigh : x ≤ ((1 : Nat) : Rat) * 2 ^ (exponent x + 1) := by
      rw [Nat.cast_one, one_mul]
      exact (lt_two_zpow_exponent hpos).le
    have hlow : ((1 : Nat) : Rat) * 2 ^ exponent y ≤ y := by
      rw [Nat.cast_one, one_mul]
      exact two_zpow_exponent_le (hpos.trans_le h)
    calc nearest x ≤ ((1 : Nat) : Rat) * 2 ^ (exponent x + 1) := nearest_le (by norm_num) hhigh
      _ ≤ ((1 : Nat) : Rat) * 2 ^ exponent y := by
          gcongr
          · norm_num
          · omega
      _ ≤ nearest y := le_nearest (hpos.trans_le h) (by norm_num) hlow
  · have hspacing : spacing x = spacing y := by rw [spacing, spacing, hsame]
    have hle : x / spacing y ≤ y / spacing y := by
      have := spacing_pos y
      gcongr
    have hround : (roundHalfEven (x / spacing y) : Rat) ≤ roundHalfEven (y / spacing y) := by
      exact_mod_cast roundHalfEven_mono hle
    rw [nearest_of_pos hpos, nearest_of_pos (hpos.trans_le h), hspacing]
    exact mul_le_mul_of_nonneg_right hround (spacing_pos y).le

/-- A double rounds to itself. -/
theorem nearest_double {k : Nat} (hk : k ≤ 2 ^ 53) (j : Int) :
    nearest ((k : Rat) * 2 ^ j) = k * 2 ^ j := by
  rcases Nat.eq_zero_or_pos k with rfl | hpos
  · exact (nearest_of_nonpos (by simp)).trans (by simp)
  · have hcast : (0 : Rat) < k * 2 ^ j := by positivity
    exact le_antisymm (nearest_le hk le_rfl) (le_nearest hcast hk le_rfl)

/-- A count of at most fifty-three bits is a double. -/
theorem nearest_natCast {k : Nat} (hk : k ≤ 2 ^ 53) : nearest (k : Rat) = k := by
  simpa using nearest_double hk 0

/-! ## Rounded products -/

/-- The largest double below one. -/
def belowOne : Rat :=
  (2 ^ 53 - 1 : Nat) * 2 ^ (-53 : Int)

/-- A positive count rounds to a multiple of its spacing, of at least `2 ^ 52` and at most
`2 ^ 53` gaps. -/
theorem nearest_eq_mul_spacing {n : Nat} (hn : 0 < n) :
    ∃ k : Nat, nearest (n : Rat) = k * spacing n ∧ 2 ^ 52 ≤ k ∧ k ≤ 2 ^ 53 ∧
      (k - 1 / 2 : Rat) * spacing n ≤ n := by
  have hpos : (0 : Rat) < n := by exact_mod_cast hn
  have hspacing := spacing_pos n
  have hlow : ((2 ^ 52 : Int) : Rat) ≤ n / spacing n := by
    rw [le_div_iff₀ hspacing, intCast_mul_spacing]
    exact two_zpow_exponent_le hpos
  have hhigh : (n : Rat) / spacing n < 2 ^ 53 := by
    rw [div_lt_iff₀ hspacing, mul_spacing_succ]
    exact lt_two_zpow_exponent hpos
  have hgaps : 2 ^ 52 ≤ roundHalfEven ((n : Rat) / spacing n) := le_roundHalfEven hlow
  have hbound : roundHalfEven ((n : Rat) / spacing n) ≤ 2 ^ 53 := by
    apply roundHalfEven_le
    push_cast
    linarith
  have hmiddle := roundHalfEven_le_add_half ((n : Rat) / spacing n)
  have hround := nearest_of_pos hpos
  generalize roundHalfEven ((n : Rat) / spacing n) = gaps at *
  have hcast : ((gaps.toNat : Nat) : Rat) = gaps := by
    exact_mod_cast Int.toNat_of_nonneg (by omega)
  refine ⟨gaps.toNat, ?_, by omega, by omega, ?_⟩
  · rw [hcast, hround]
  · rw [hcast, ← le_div_iff₀ hspacing]
    linarith

/-- What a count rounds to is a double. -/
theorem nearest_nearest (n : Nat) : nearest (nearest (n : Rat)) = nearest n := by
  rcases Nat.eq_zero_or_pos n with rfl | hn
  · simp only [Nat.cast_zero, nearest_of_nonpos le_rfl]
  · obtain ⟨k, hround, -, hhigh, -⟩ := nearest_eq_mul_spacing hn
    rw [hround, spacing]
    exact nearest_double hhigh _

/-- A double below another one is below it by at least the part of it by which the largest double
below one is below one. -/
theorem double_le_belowOne_mul {k l : Nat} {i j : Int} (hk : k ≤ 2 ^ 53) (hl : l ≤ 2 ^ 53)
    (hij : i ≤ j) (hlt : (k : Rat) * 2 ^ i < l * 2 ^ j) :
    (k : Rat) * 2 ^ i ≤ belowOne * (l * 2 ^ j) := by
  obtain ⟨shift, rfl⟩ := Int.le.dest hij
  -- Both are counted in the gaps of the smaller one.
  have hform : (l : Rat) * 2 ^ (i + (shift : Int)) = ((l * 2 ^ shift : Nat) : Rat) * 2 ^ i := by
    rw [zpow_add₀ (by norm_num), zpow_natCast]
    push_cast
    ring
  rw [hform] at hlt ⊢
  have hpos : (0 : Rat) < 2 ^ i := by positivity
  have hcount : k < l * 2 ^ shift := by
    exact_mod_cast lt_of_mul_lt_mul_right hlt hpos.le
  have hgaps : l * 2 ^ shift ≤ 2 ^ 53 * (l * 2 ^ shift - k) := by
    rcases shift with - | shift
    · omega
    · have heven : l * 2 ^ (shift + 1) = 2 * (l * 2 ^ shift) := by ring
      omega
  have hcast : ((l * 2 ^ shift : Nat) : Rat) ≤ 2 ^ 53 * ((l * 2 ^ shift : Nat) - k) := by
    rw [← Nat.cast_sub hcount.le]
    exact_mod_cast hgaps
  rw [← mul_assoc]
  apply mul_le_mul_of_nonneg_right _ hpos.le
  norm_num [belowOne] at hcast ⊢
  linarith

/-- The rounded quotient of a rounded count by a larger one is a double below one. -/
theorem nearest_div_le {part whole : Nat} (hlt : nearest (part : Rat) < nearest whole) :
    nearest (nearest (part : Rat) / nearest whole) ≤ belowOne := by
  have hle : part < whole := by
    by_contra hge
    exact absurd (nearest_mono (by exact_mod_cast not_lt.mp hge)) (not_le.mpr hlt)
  rcases Nat.eq_zero_or_pos part with rfl | hpart
  · rw [Nat.cast_zero, nearest_of_nonpos le_rfl, zero_div, nearest_of_nonpos le_rfl]
    norm_num [belowOne]
  obtain ⟨k, hround, -, hhigh, -⟩ := nearest_eq_mul_spacing hpart
  obtain ⟨l, hround', hlow', hhigh', -⟩ := nearest_eq_mul_spacing (hpart.trans hle)
  have hpos : (0 : Rat) < l * spacing whole := by
    have := spacing_pos whole
    positivity
  have hexponent : exponent (part : Rat) ≤ exponent whole :=
    exponent_mono (by exact_mod_cast hpart) (by exact_mod_cast hle.le)
  rw [hround, hround'] at hlt ⊢
  apply nearest_le (by norm_num)
  rw [← belowOne, div_le_iff₀ hpos]
  exact double_le_belowOne_mul hhigh hhigh' (by omega) hlt

/-- Scaling a double above a power of two down reaches the double below it. -/
theorem nearest_mul_belowOne_le (x : Rat) {k : Nat} (hlow : 2 ^ 52 < k) (hhigh : k ≤ 2 ^ 53)
    {fraction : Rat} (hle : fraction ≤ belowOne) :
    nearest (k * spacing x * fraction) ≤ ((k : Rat) - 1) * spacing x := by
  have hspacing := spacing_pos x
  have hform : spacing x = 2 ^ (exponent x - 52) := rfl
  have habove : (2 ^ 52 + 1 : Rat) ≤ k := by exact_mod_cast hlow
  have hbelow : (k : Rat) ≤ 2 ^ 53 := by exact_mod_cast hhigh
  have hpred : ((k - 1 : Nat) : Rat) = k - 1 := by
    rw [Nat.cast_sub (by omega), Nat.cast_one]
  have hproduct : k * spacing x * fraction < ((k : Rat) - 1 / 2) * spacing x := by
    have hbound : k * spacing x * fraction ≤ k * spacing x * belowOne := by gcongr
    have hstrict : (k : Rat) * belowOne < k - 1 / 2 := by
      norm_num [belowOne]
      linarith
    have hscaled := mul_lt_mul_of_pos_right hstrict hspacing
    linarith
  by_cases hlower : k * spacing x * fraction ≤ ((k : Rat) - 1) * spacing x
  · rw [hform, ← hpred] at hlower ⊢
    exact nearest_le ((Nat.sub_le k 1).trans hhigh) hlower
  · -- The product is in the binade of `x`, so both have the same spacing.
    have hbottom : 2 ^ 52 * spacing x ≤ ((k : Rat) - 1) * spacing x := by
      apply mul_le_mul_of_nonneg_right _ hspacing.le
      linarith
    have htop : ((k : Rat) - 1 / 2) * spacing x ≤ 2 ^ 53 * spacing x := by
      apply mul_le_mul_of_nonneg_right _ hspacing.le
      linarith
    have hsame : exponent (k * spacing x * fraction) = exponent x := by
      apply exponent_eq
      · rw [← mul_spacing]
        exact hbottom.trans (not_le.mp hlower).le
      · rw [← mul_spacing_succ]
        exact hproduct.trans_le htop
    have hspacingEq : spacing (k * spacing x * fraction) = spacing x := by
      rw [spacing, hsame, hform]
    have hpositive : 0 < k * spacing x * fraction :=
      lt_of_le_of_lt (mul_nonneg (by linarith) hspacing.le) (not_le.mp hlower)
    have hnearest := nearest_le_of_lt_half hpositive (n := (k : Int) - 1) (by
      rw [hspacingEq]
      push_cast
      linarith)
    rw [hspacingEq] at hnearest
    push_cast at hnearest
    exact hnearest

/-- A rounded count times a double below one, rounded, is at most the count. -/
theorem nearest_mul_le {n : Nat} {fraction : Rat} (hle : fraction ≤ belowOne) :
    nearest (nearest (n : Rat) * fraction) ≤ n := by
  rcases Nat.eq_zero_or_pos n with rfl | hn
  · have hzero : nearest ((0 : Nat) : Rat) = 0 := nearest_of_nonpos (by norm_num)
    rw [hzero, zero_mul, nearest_of_nonpos le_rfl]
    norm_num
  rcases nearest_eq_mul_spacing hn with ⟨k, hround, hlow, hhigh, hmiddle⟩
  have hspacing := spacing_pos n
  rw [hround]
  by_cases hup : k * spacing n ≤ n
  · -- The count was rounded down: the product does not pass the rounded count.
    have hform : spacing (n : Rat) = 2 ^ (exponent n - 52) := rfl
    have hfraction : fraction ≤ 1 := hle.trans (by norm_num [belowOne])
    have hproduct : k * spacing n * fraction ≤ k * 2 ^ (exponent n - 52) := by
      rw [← hform]
      exact mul_le_of_le_one_right (by positivity) hfraction
    have hnearest := nearest_le hhigh hproduct
    rw [← hform] at hnearest
    exact hnearest.trans hup
  · -- The count was rounded up: the double below the rounded count is at most the count.
    have habove : 2 ^ 52 < k := by
      have hlt : 2 ^ 52 * spacing n < k * spacing n := by
        rw [mul_spacing]
        exact (two_zpow_exponent_le (by exact_mod_cast hn)).trans_lt (not_le.mp hup)
      have hgt : (2 ^ 52 : Rat) < k := lt_of_mul_lt_mul_right hlt hspacing.le
      exact_mod_cast hgt
    have hbelow : ((k : Rat) - 1) * spacing n ≤ n := by linarith
    exact (nearest_mul_belowOne_le n habove hhigh hle).trans hbelow

end CacheMeter.Binary64
