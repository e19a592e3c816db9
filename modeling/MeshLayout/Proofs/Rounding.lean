/-
MeshLayout/Proofs/Rounding.lean

Rounding to the nearest magnitude.

Every magnitude is a binade and a significand, and the values of two
magnitudes that follow each other lie one unit of the binade apart
(`units_add_units_succ`).  The quotient that `nearest` rounds lies in one
binade, and there `roundQuotient` rounds its significand (`exists_nearest_eq`).

What `nearest` does is said once, by the midpoints: it goes beyond a
magnitude if the quotient goes beyond the midpoint to the next one, or lies
on it and the next is the even one (`lt_nearest_iff`).  From that follow that
rounding is monotone, that it keeps the exact values, and the main result,
`nearest_rounds`: no magnitude is nearer, and a tie goes to the even one.
-/
import Mathlib.Algebra.Order.Field.Rat
import Mathlib.Algebra.Order.Ring.Abs
import Mathlib.Tactic.Linarith
import Mathlib.Tactic.Positivity
import Mathlib.Tactic.Ring
import MeshLayout.Binary32.Basic

namespace MeshLayout

namespace Binary32

/-! ### Values of magnitudes -/

/-- A binade and a significand in it.  Only the lowest binade has significands without a leading
one; twice the leading one stands for the beginning of the next binade. -/
theorem units_add {binade significand : Nat} (hleading : 0 < binade → leadingOne ≤ significand)
    (hbound : significand ≤ 2 * leadingOne) :
    units (binade * leadingOne + significand) = significand * 2 ^ binade := by
  have hpos : 0 < leadingOne := by decide
  rcases Nat.lt_or_ge significand leadingOne with hlow | hlow
  · -- without leading one
    obtain rfl : binade = 0 := by omega
    rw [Nat.zero_mul, Nat.zero_add, units, if_pos hlow, pow_zero, Nat.mul_one]
  have hmagnitude : ¬ binade * leadingOne + significand < leadingOne := by omega
  rw [units, if_neg hmagnitude, Nat.add_comm (binade * leadingOne), Nat.add_mul_mod_self_right,
    Nat.add_mul_div_right _ _ hpos, Nat.pow_eq]
  rcases Nat.eq_or_lt_of_le hbound with rfl | hhigh
  · -- the beginning of the next binade
    rw [Nat.mul_mod_left, Nat.mul_div_cancel _ hpos, Nat.add_zero,
      show 2 + binade - 1 = binade + 1 by omega, pow_succ]
    ring
  · obtain ⟨fraction, rfl⟩ := Nat.exists_eq_add_of_le hlow
    have hfraction : fraction < leadingOne := by omega
    rw [Nat.add_mod_left, Nat.add_div_left _ hpos, Nat.mod_eq_of_lt hfraction,
      Nat.div_eq_of_lt hfraction, Nat.succ_add_sub_one, Nat.zero_add]

theorem exists_significand (magnitude : Nat) :
    ∃ binade significand, magnitude = binade * leadingOne + significand ∧
      significand < 2 * leadingOne ∧ (0 < binade → leadingOne ≤ significand) := by
  have hpos : 0 < leadingOne := by decide
  rcases Nat.lt_or_ge magnitude leadingOne with h | h
  · exact ⟨0, magnitude, by omega, by omega, by omega⟩
  · have hmod := Nat.mod_lt magnitude hpos
    have hdiv := Nat.div_add_mod magnitude leadingOne
    obtain ⟨binade, hbinade⟩ := Nat.exists_eq_add_of_le' (Nat.div_pos h hpos)
    refine ⟨binade, leadingOne + magnitude % leadingOne, ?_, by omega, by omega⟩
    rw [hbinade, Nat.mul_comm, Nat.add_mul] at hdiv
    omega

/-- The midpoint of two magnitudes that follow each other, twice. -/
theorem units_add_units_succ {binade significand : Nat}
    (hleading : 0 < binade → leadingOne ≤ significand) (hbound : significand < 2 * leadingOne) :
    units (binade * leadingOne + significand) + units (binade * leadingOne + significand + 1) =
      (2 * significand + 1) * 2 ^ binade := by
  have hnext : significand + 1 ≤ 2 * leadingOne := hbound
  rw [units_add hleading hbound.le, Nat.add_assoc, units_add (by omega) hnext]
  ring

theorem units_lt_units_succ (magnitude : Nat) : units magnitude < units (magnitude + 1) := by
  obtain ⟨binade, significand, rfl, hbound, hleading⟩ := exists_significand magnitude
  have hnext : significand + 1 ≤ 2 * leadingOne := hbound
  rw [units_add hleading hbound.le, Nat.add_assoc, units_add (by omega) hnext]
  exact Nat.mul_lt_mul_of_pos_right (Nat.lt_succ_self _) (by positivity)

theorem units_strictMono : StrictMono units := strictMono_nat_of_lt_succ units_lt_units_succ

/-- The midpoints below a magnitude. -/
theorem midpoint_lt {magnitude start : Nat} (h : magnitude < start) :
    units magnitude + units (magnitude + 1) < 2 * units start := by
  have hstep := units_lt_units_succ magnitude
  have hstart : units (magnitude + 1) ≤ units start := units_strictMono.monotone h
  omega

/-- The midpoints above a magnitude. -/
theorem lt_midpoint {magnitude start : Nat} (h : start ≤ magnitude) :
    2 * units start < units magnitude + units (magnitude + 1) := by
  have hstep := units_lt_units_succ magnitude
  have hstart : units start ≤ units magnitude := units_strictMono.monotone h
  omega

/-! ### The quotient -/

/-- Rounding goes beyond a number if the quotient goes beyond the midpoint to the next one, or
lies on it and the next is the even one. -/
theorem lt_roundQuotient_iff {numerator denominator : Nat} (hpos : 0 < denominator) (a : Nat) :
    a < roundQuotient numerator denominator ↔
      (2 * a + 1) * denominator < 2 * numerator + a % 2 := by
  have hdiv := Nat.div_add_mod numerator denominator
  have hmod := Nat.mod_lt numerator hpos
  have hmidpoint : (2 * a + 1) * denominator = 2 * (denominator * a) + denominator := by ring
  simp only [roundQuotient]
  rcases Nat.lt_trichotomy a (numerator / denominator) with h | h | h
  · have hbelow := Nat.mul_le_mul_left denominator h
    rw [Nat.mul_succ] at hbelow
    split_ifs <;> omega
  · rw [← h] at hdiv ⊢
    split_ifs <;> omega
  · have habove := Nat.mul_le_mul_left denominator h
    rw [Nat.mul_succ] at habove
    split_ifs <;> omega

/-- The binade of a quotient, and what rounding makes of it there. -/
theorem exists_nearest_eq {numerator denominator : Nat} (hpos : 0 < denominator) :
    ∃ binade,
      (0 < binade → leadingOne * (denominator * 2 ^ binade) ≤ numerator * 2 ^ 149) ∧
      numerator * 2 ^ 149 < 2 * leadingOne * (denominator * 2 ^ binade) ∧
      nearest numerator denominator = min
        (binade * leadingOne + roundQuotient (numerator * 2 ^ 149) (denominator * 2 ^ binade))
        infinity := by
  generalize hscaled : numerator * 2 ^ 149 = scaled
  have hhigh := @Nat.lt_log2_self (scaled / denominator)
  rw [Nat.div_lt_iff_lt_mul hpos] at hhigh
  refine ⟨Nat.log2 (scaled / denominator) - 23, fun hbinade => ?_, ?_, ?_⟩
  · -- the quotient is not zero, and its logarithm is the binade and 23
    have hne : scaled / denominator ≠ 0 := by
      intro hzero
      rw [hzero] at hbinade
      exact absurd hbinade (by decide)
    have hlow := Nat.log2_self_le hne
    rw [Nat.le_div_iff_mul_le hpos] at hlow
    obtain ⟨binade, hlog⟩ := Nat.exists_eq_add_of_lt hbinade
    rw [Nat.zero_add] at hlog
    rw [hlog]
    rw [show Nat.log2 (scaled / denominator) = binade + 1 + 23 by omega, pow_add] at hlow
    calc leadingOne * (denominator * 2 ^ (binade + 1))
        = 2 ^ (binade + 1) * 2 ^ 23 * denominator := by rw [leadingOne]; ring
      _ ≤ scaled := hlow
  · calc scaled < 2 ^ (Nat.log2 (scaled / denominator) + 1) * denominator := hhigh
      _ ≤ 2 ^ (24 + (Nat.log2 (scaled / denominator) - 23)) * denominator :=
        Nat.mul_le_mul_right _ (Nat.pow_le_pow_right (by decide) (by omega))
      _ = 2 * leadingOne * (denominator * 2 ^ (Nat.log2 (scaled / denominator) - 23)) := by
        rw [pow_add, leadingOne]
        ring
  · simp only [nearest, Nat.pow_eq, hscaled]
    split_ifs with h
    · exact (min_eq_left h.le).symm
    · exact (min_eq_right (not_lt.1 h)).symm

/-- The rounded significand of a quotient in the binade. -/
theorem roundQuotient_bounds {scaled unit : Nat} (hunit : 0 < unit) :
    (leadingOne * unit ≤ scaled → leadingOne ≤ roundQuotient scaled unit) ∧
      (scaled < 2 * leadingOne * unit → roundQuotient scaled unit ≤ 2 * leadingOne) := by
  constructor
  · intro hlow
    have hround := @lt_roundQuotient_iff scaled unit hunit (leadingOne - 1)
    rw [leadingOne] at hlow hround ⊢
    omega
  · intro hhigh
    have hround := @lt_roundQuotient_iff scaled unit hunit (2 * leadingOne)
    rw [leadingOne] at hhigh hround ⊢
    omega

/-- Rounding a quotient in its binade: one unit of the binade takes a magnitude to the next. -/
theorem lt_binade_iff {scaled denominator binade : Nat} (hpos : 0 < denominator)
    (hlow : 0 < binade → leadingOne * (denominator * 2 ^ binade) ≤ scaled)
    (hhigh : scaled < 2 * leadingOne * (denominator * 2 ^ binade)) (magnitude : Nat) :
    magnitude < binade * leadingOne + roundQuotient scaled (denominator * 2 ^ binade) ↔
      (units magnitude + units (magnitude + 1)) * denominator < 2 * scaled + magnitude % 2 := by
  have hunit : 0 < denominator * 2 ^ binade := by positivity
  obtain ⟨hfirst, hlast⟩ := @roundQuotient_bounds scaled _ hunit
  by_cases hbegin : 0 < binade ∧ magnitude < binade * leadingOne + leadingOne
  · -- the binade begins above the magnitude
    have hmidpoint := midpoint_lt hbegin.2
    rw [units_add (fun _ => le_refl _) (by decide)] at hmidpoint
    have hquotient : (units magnitude + units (magnitude + 1)) * denominator < 2 * scaled := by
      calc (units magnitude + units (magnitude + 1)) * denominator
          < 2 * (leadingOne * 2 ^ binade) * denominator := Nat.mul_lt_mul_of_pos_right hmidpoint hpos
        _ = 2 * (leadingOne * (denominator * 2 ^ binade)) := by ring
        _ ≤ 2 * scaled := Nat.mul_le_mul_left 2 (hlow hbegin.1)
    have hrounded := hfirst (hlow hbegin.1)
    omega
  rcases Nat.lt_or_ge magnitude (binade * leadingOne + 2 * leadingOne) with hend | hend
  · -- the magnitude lies in the binade
    have hstart : binade * leadingOne ≤ magnitude := by
      rcases Nat.eq_zero_or_pos binade with rfl | hbinade
      · omega
      · omega
    obtain ⟨significand, rfl⟩ := Nat.exists_eq_add_of_le hstart
    have hparity : (binade * leadingOne + significand) % 2 = significand % 2 := by
      rw [leadingOne]
      omega
    rw [Nat.add_lt_add_iff_left, lt_roundQuotient_iff hunit, hparity,
      units_add_units_succ (by omega) (by omega), Nat.mul_comm denominator, Nat.mul_assoc]
  · -- the binade ends below the magnitude
    have hmidpoint := lt_midpoint hend
    rw [units_add (by omega) (le_refl _)] at hmidpoint
    have hquotient : 2 * scaled < (units magnitude + units (magnitude + 1)) * denominator := by
      calc 2 * scaled
          < 2 * (2 * leadingOne * (denominator * 2 ^ binade)) := by omega
        _ = 2 * (2 * leadingOne * 2 ^ binade) * denominator := by ring
        _ < (units magnitude + units (magnitude + 1)) * denominator :=
          Nat.mul_lt_mul_of_pos_right hmidpoint hpos
    have hrounded := hlast hhigh
    omega

/-! ### Exact values -/

/-- The exact value of a finite magnitude. -/
def value (magnitude : Nat) : ℚ := units magnitude / 2 ^ 149

theorem value_strictMono : StrictMono value := by
  intro a b h
  have hunits : (units a : ℚ) < units b := Nat.cast_lt.2 (units_strictMono h)
  exact div_lt_div_of_pos_right hunits (by positivity)

/-- The number is beyond the midpoint of a magnitude and the next one, or on it and the next is
the even one. -/
def Beyond (magnitude : Nat) (number : ℚ) : Prop :=
  value magnitude + value (magnitude + 1) < 2 * number ∨
    value magnitude + value (magnitude + 1) = 2 * number ∧ magnitude % 2 = 1

variable {magnitude numerator denominator : Nat} {number : ℚ}

theorem Beyond.mono {more : ℚ} (h : Beyond magnitude number) (hle : number ≤ more) :
    Beyond magnitude more := by
  rcases h with hlt | ⟨heq, hodd⟩
  · exact .inl (by linarith)
  · rcases hle.eq_or_lt with rfl | hlt
    · exact .inr ⟨heq, hodd⟩
    · exact .inl (by linarith)

theorem beyond_div_iff (hpos : 0 < denominator) :
    Beyond magnitude (numerator / denominator) ↔
      (units magnitude + units (magnitude + 1)) * denominator <
        2 * (numerator * 2 ^ 149) + magnitude % 2 := by
  have hmidpoint : value magnitude + value (magnitude + 1) =
      ((units magnitude + units (magnitude + 1) : Nat) : ℚ) / 2 ^ 149 := by
    rw [value, value, ← add_div, Nat.cast_add]
  have htwice : 2 * ((numerator : ℚ) / denominator) = ((2 * numerator : Nat) : ℚ) / denominator := by
    push_cast
    ring
  have hden : (0 : ℚ) < denominator := Nat.cast_pos.2 hpos
  rw [Beyond, hmidpoint, htwice, div_lt_div_iff₀ (by positivity) hden,
    div_eq_div_iff (by positivity) hden.ne']
  norm_cast
  rw [← Nat.mul_assoc]
  omega

/-- **What rounding does**: it goes beyond the magnitudes that the quotient is beyond. -/
theorem lt_nearest_iff (hpos : 0 < denominator) (hfinite : magnitude < infinity) :
    magnitude < nearest numerator denominator ↔ Beyond magnitude (numerator / denominator) := by
  obtain ⟨binade, hlow, hhigh, heq⟩ := @exists_nearest_eq numerator denominator hpos
  rw [heq, lt_min_iff, and_iff_left hfinite, lt_binade_iff hpos hlow hhigh, beyond_div_iff hpos]

theorem nearest_le_infinity (numerator denominator : Nat) :
    nearest numerator denominator ≤ infinity := by
  simp only [nearest]
  split_ifs with h
  · exact h.le
  · exact le_refl _

/-- **Rounding is monotone.** -/
theorem nearest_mono {n d : Nat} (hpos : 0 < denominator) (hd : 0 < d)
    (h : (numerator : ℚ) / denominator ≤ n / d) :
    nearest numerator denominator ≤ nearest n d := by
  by_contra hlt
  rw [not_le] at hlt
  have hfinite : nearest n d < infinity := hlt.trans_le (nearest_le_infinity _ _)
  have hbeyond := ((lt_nearest_iff hpos hfinite).1 hlt).mono h
  exact absurd ((lt_nearest_iff hd hfinite).2 hbeyond) (lt_irrefl _)

theorem not_beyond_value (magnitude : Nat) : ¬ Beyond magnitude (value magnitude) := by
  have hstep := value_strictMono (Nat.lt_succ_self magnitude)
  rintro (hlt | ⟨heq, -⟩)
  · linarith
  · linarith

theorem beyond_value_succ (magnitude : Nat) : Beyond magnitude (value (magnitude + 1)) := by
  have hstep := value_strictMono (Nat.lt_succ_self magnitude)
  exact .inl (by linarith)

/-- **Rounding keeps the exact values.** -/
theorem nearest_of_value (hpos : 0 < denominator) (hfinite : magnitude < infinity)
    (h : (numerator : ℚ) / denominator = value magnitude) :
    nearest numerator denominator = magnitude := by
  apply Nat.le_antisymm
  · rw [← not_lt, lt_nearest_iff hpos hfinite, h]
    exact not_beyond_value magnitude
  · rcases magnitude with - | magnitude
    · exact Nat.zero_le _
    · rw [Nat.succ_le_iff, lt_nearest_iff hpos (by omega), h]
      exact beyond_value_succ magnitude

/-! ### Nearest and even -/

/-- No magnitude is nearer to the number, and where another one is as near, this one is even. -/
structure Rounds (number : ℚ) (magnitude : Nat) : Prop where
  nearest : ∀ other, |number - value magnitude| ≤ |number - value other|
  even : ∀ other, other ≠ magnitude →
    |number - value other| = |number - value magnitude| → magnitude % 2 = 0

/-- Up to the midpoint of two numbers the lower one is as near as the upper one. -/
theorem le_midpoint_iff {lower upper : ℚ} (h : lower < upper) :
    |number - lower| ≤ |number - upper| ↔ 2 * number ≤ lower + upper := by
  rw [← sq_le_sq]
  constructor
  · intro hsq
    nlinarith
  · intro hmidpoint
    nlinarith

/-- From the midpoint on the upper one is as near as the lower one. -/
theorem midpoint_le_iff {lower upper : ℚ} (h : lower < upper) :
    |number - upper| ≤ |number - lower| ↔ lower + upper ≤ 2 * number := by
  rw [← sq_le_sq]
  constructor
  · intro hsq
    nlinarith
  · intro hmidpoint
    nlinarith

theorem rounds_of_beyond (hbelow : ∀ below, below + 1 = magnitude → Beyond below number)
    (habove : ¬ Beyond magnitude number) : Rounds number magnitude := by
  obtain ⟨hlt, htie⟩ := not_or.1 habove
  rw [not_lt] at hlt
  constructor
  · intro other
    rcases Nat.lt_trichotomy other magnitude with h | rfl | h
    · obtain ⟨below, rfl⟩ := Nat.exists_eq_add_of_le' (Nat.one_le_of_lt h)
      have hother : value other ≤ value below := value_strictMono.monotone (Nat.lt_succ_iff.1 h)
      rw [midpoint_le_iff (value_strictMono h)]
      rcases hbelow below rfl with hmidpoint | ⟨hmidpoint, -⟩
      · linarith
      · linarith
    · exact le_refl _
    · have hother : value (magnitude + 1) ≤ value other := value_strictMono.monotone h
      rw [le_midpoint_iff (value_strictMono h)]
      linarith
  · intro other hne heq
    rcases Nat.lt_or_gt_of_ne hne with h | h
    · obtain ⟨below, rfl⟩ := Nat.exists_eq_add_of_le' (Nat.one_le_of_lt h)
      have hother : value other ≤ value below := value_strictMono.monotone (Nat.lt_succ_iff.1 h)
      have hmidpoint := (le_midpoint_iff (value_strictMono h)).1 heq.le
      rcases hbelow below rfl with hfar | ⟨-, hodd⟩
      · linarith
      · omega
    · have hother : value (magnitude + 1) ≤ value other := value_strictMono.monotone h
      have hmidpoint := (midpoint_le_iff (value_strictMono h)).1 heq.le
      have hodd : ¬ magnitude % 2 = 1 := fun hodd => htie ⟨by linarith, hodd⟩
      omega

/-- **Rounding is to nearest, a tie to even.**  What is beyond the midpoint of the last finite
magnitude and the next one becomes the infinity. -/
theorem nearest_rounds (hpos : 0 < denominator) :
    (nearest numerator denominator = infinity ↔
      Beyond (infinity - 1) (numerator / denominator)) ∧
    (nearest numerator denominator < infinity →
      Rounds (numerator / denominator) (nearest numerator denominator)) := by
  constructor
  · have hle := nearest_le_infinity numerator denominator
    rw [← lt_nearest_iff hpos (by decide)]
    rw [infinity] at hle ⊢
    omega
  · intro hfinite
    apply rounds_of_beyond
    · intro below hbelow
      rw [← lt_nearest_iff hpos (by omega)]
      omega
    · rw [← lt_nearest_iff hpos hfinite]
      exact lt_irrefl _

end Binary32

end MeshLayout
