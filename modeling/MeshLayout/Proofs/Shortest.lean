/-
MeshLayout/Proofs/Shortest.lean

The shortest decimal of a magnitude.

Decimals read back by rounding, so those that read back as one magnitude lie
together: what lies between two of them is another one
(`readsBack_of_between`).  The exact value reads back, so if any point of a
grid does then one of the two neighbours of the exact value does too
(`exists_onGrid?`).  The search therefore stops at the coarsest grid that has
a point (`exponent_le_shortest`), and no decimal that reads back is coarser.

That the digits are the fewest possible follows: if a decimal had fewer, a
power of ten would lie between it and the one that was found, and it would be
a point of a coarser grid (`shortest_fewest`).
-/
import Mathlib.Algebra.Order.Field.Power
import Mathlib.Algebra.Order.Floor.Semifield
import Mathlib.Data.Rat.Floor
import MeshLayout.Binary32.Shortest
import MeshLayout.Proofs.Rounding

namespace MeshLayout

/-! ### Values of decimals -/

/-- The exact value of a decimal. -/
def Decimal.value (d : Decimal) : ℚ := d.digits * 10 ^ d.exponent

theorem ten_zpow_eq (exponent : Int) :
    (10 : ℚ) ^ exponent = 10 ^ exponent.toNat / 10 ^ (-exponent).toNat := by
  rcases Int.eq_nat_or_neg exponent with ⟨n, rfl | rfl⟩
  · simp
  · simp

/-- A value is the quotient that is rounded when the decimal is read. -/
theorem Decimal.value_eq (d : Decimal) :
    d.value = ((d.digits * 10 ^ d.exponent.toNat : Nat) : ℚ) / (10 ^ (-d.exponent).toNat : Nat) := by
  rw [Decimal.value, ten_zpow_eq]
  push_cast
  exact mul_div_assoc' _ _ _

theorem Decimal.value_le {digits digits' : Nat} {exponent exponent' : Int} (hdigits : digits ≤ digits')
    (hexponent : exponent ≤ exponent') :
    value ⟨digits, exponent⟩ ≤ value ⟨digits', exponent'⟩ := by
  have hpower : (10 : ℚ) ^ exponent ≤ 10 ^ exponent' := zpow_le_zpow_right₀ (by norm_num) hexponent
  rw [value, value]
  exact mul_le_mul (Nat.cast_le.2 hdigits) hpower (by positivity) (by positivity)

/-- A power of ten is a point of the grid of that power. -/
theorem Decimal.value_ten_pow (count : Nat) (exponent : Int) :
    value ⟨10 ^ count, exponent⟩ = value ⟨1, exponent + count⟩ := by
  rw [value, value, zpow_add₀ (by norm_num), zpow_natCast]
  push_cast
  ring

namespace Binary32

variable {magnitude : Nat} {d : Decimal}

theorem nearestDecimal_eq (digits : Nat) (exponent : Int) :
    nearestDecimal digits exponent =
      nearest (digits * 10 ^ exponent.toNat) (10 ^ (-exponent).toNat) := by
  rw [nearestDecimal]
  rcases Int.eq_nat_or_neg exponent with ⟨n, rfl | rfl⟩
  · simp [Nat.pow_eq]
  · rcases Nat.eq_zero_or_pos n with rfl | hn
    · simp [Nat.pow_eq]
    · rw [if_neg (by omega)]
      simp [Nat.pow_eq]

theorem nearestDecimal_mono {e : Decimal} (h : d.value ≤ e.value) :
    nearestDecimal d.digits d.exponent ≤ nearestDecimal e.digits e.exponent := by
  rw [nearestDecimal_eq, nearestDecimal_eq]
  apply nearest_mono (by positivity) (by positivity)
  rwa [← Decimal.value_eq, ← Decimal.value_eq]

/-! ### Reading back -/

theorem readsBack_iff : readsBack magnitude d = true ↔
    nearestDecimal d.digits d.exponent = magnitude := by
  rw [readsBack, decide_eq_true_iff]

theorem readsBack_of_value (hfinite : magnitude < infinity) (h : d.value = value magnitude) :
    readsBack magnitude d = true := by
  rw [readsBack_iff, nearestDecimal_eq]
  apply nearest_of_value (by positivity) hfinite
  rw [← Decimal.value_eq, h]

/-- **What lies between decimals that read back** reads back as well. -/
theorem readsBack_of_between {lower upper : Decimal} (hlower : readsBack magnitude lower = true)
    (hupper : readsBack magnitude upper = true) (h : lower.value ≤ d.value)
    (h' : d.value ≤ upper.value) : readsBack magnitude d = true := by
  rw [readsBack_iff] at hlower hupper ⊢
  apply Nat.le_antisymm
  · rw [← hupper]
    exact nearestDecimal_mono h'
  · rw [← hlower]
    exact nearestDecimal_mono h

theorem value_exactDecimal (magnitude : Nat) : (exactDecimal magnitude).value = value magnitude := by
  have hten : 10 ^ 149 = 2 ^ 149 * 5 ^ 149 := Nat.mul_pow 2 5 149
  have hfive : ((5 ^ 149 : Nat) : ℚ) ≠ 0 := Nat.cast_ne_zero.2 (by positivity)
  rw [Decimal.value_eq]
  show ((units magnitude * Nat.pow 5 149 * 10 ^ 0 : Nat) : ℚ) / (10 ^ 149 : Nat) = value magnitude
  rw [pow_zero, Nat.mul_one, hten, Nat.cast_mul, Nat.cast_mul, Nat.pow_eq,
    mul_div_mul_right _ _ hfive, value]
  norm_cast

theorem readsBack_exactDecimal (hfinite : magnitude < infinity) :
    readsBack magnitude (exactDecimal magnitude) = true :=
  readsBack_of_value hfinite (value_exactDecimal magnitude)

/-! ### The neighbours on a grid -/

/-- The number of the last point of a grid that is not above the exact value. -/
def point (magnitude : Nat) (exponent : Int) : Nat :=
  units magnitude * Nat.pow 10 (-exponent).toNat / (Nat.pow 2 149 * Nat.pow 10 exponent.toNat)

theorem point_le (magnitude : Nat) (exponent : Int) :
    Decimal.value ⟨point magnitude exponent, exponent⟩ ≤ value magnitude ∧
      value magnitude < Decimal.value ⟨point magnitude exponent + 1, exponent⟩ := by
  have hpos : (0 : ℚ) < 10 ^ exponent := by positivity
  have hvalue : value magnitude / 10 ^ exponent =
      ((units magnitude * 10 ^ (-exponent).toNat : Nat) : ℚ) /
        ((2 ^ 149 * 10 ^ exponent.toNat : Nat) : ℚ) := by
    rw [value, ten_zpow_eq, div_div_div_eq]
    push_cast
    rfl
  have hfloor : point magnitude exponent = ⌊value magnitude / 10 ^ exponent⌋₊ := by
    rw [hvalue, Nat.floor_div_eq_div]
    rfl
  rw [Decimal.value, Decimal.value, ← le_div_iff₀ hpos, ← div_lt_iff₀ hpos, hfloor, Nat.cast_add_one]
  have hnonneg : 0 ≤ value magnitude / 10 ^ exponent := by
    rw [hvalue]
    positivity
  exact ⟨Nat.floor_le hnonneg, Nat.lt_floor_add_one _⟩

/-- What is taken on a grid is one of the two points around the exact value. -/
theorem onGrid?_eq_some {exponent : Int} (h : onGrid? magnitude exponent = some d) :
    d.exponent = exponent ∧ readsBack magnitude d = true := by
  simp only [onGrid?] at h
  split at h
  · next hlower hupper =>
    split_ifs at h
    · cases h
      exact ⟨rfl, hlower⟩
    · cases h
      exact ⟨rfl, hupper⟩
  · next hlower _ =>
    cases h
    exact ⟨rfl, hlower⟩
  · next hupper =>
    cases h
    exact ⟨rfl, hupper⟩
  · cases h

theorem not_readsBack_of_onGrid? {exponent : Int} (h : onGrid? magnitude exponent = none) :
    readsBack magnitude ⟨point magnitude exponent, exponent⟩ = false ∧
      readsBack magnitude ⟨point magnitude exponent + 1, exponent⟩ = false := by
  simp only [onGrid?] at h
  split at h
  · cases h
  · cases h
  · cases h
  · next hlower hupper => exact ⟨hlower, hupper⟩

/-- **A grid is not passed over** if any of its points reads back. -/
theorem exists_onGrid? (hfinite : magnitude < infinity) (h : readsBack magnitude d = true) :
    ∃ found, onGrid? magnitude d.exponent = some found := by
  rw [← Option.ne_none_iff_exists']
  intro hnone
  obtain ⟨hlower, hupper⟩ := not_readsBack_of_onGrid? hnone
  obtain ⟨hle, hlt⟩ := point_le magnitude d.exponent
  have hexact := readsBack_exactDecimal hfinite
  rw [← value_exactDecimal magnitude] at hle hlt
  -- the neighbour on the decimal's side of the exact value lies between the two
  rcases Nat.lt_or_ge (point magnitude d.exponent) d.digits with hdigits | hdigits
  · have hside := Decimal.value_le hdigits (le_refl d.exponent)
    rw [readsBack_of_between hexact h hlt.le hside] at hupper
    cases hupper
  · have hside := Decimal.value_le hdigits (le_refl d.exponent)
    rw [readsBack_of_between h hexact hside hle] at hlower
    cases hlower

/-! ### The search -/

theorem mem_grids_iff {exponent : Int} : exponent ∈ grids ↔ -149 ≤ exponent ∧ exponent ≤ 38 := by
  rw [grids, List.mem_map]
  constructor
  · rintro ⟨i, hi, rfl⟩
    rw [List.mem_range] at hi
    omega
  · rintro ⟨hlow, hhigh⟩
    exact ⟨(38 - exponent).toNat, List.mem_range.2 (by omega), by omega⟩

theorem pairwise_grids : grids.Pairwise fun coarser finer => finer < coarser := by
  rw [grids, List.pairwise_map]
  exact List.pairwise_lt_range.imp fun h => by omega

/-- The search ends with a point of some grid, and no coarser one has a point. -/
theorem onGrid?_shortest (hfinite : magnitude < infinity) (hne : magnitude ≠ 0) :
    (shortest magnitude).exponent ∈ grids ∧
      onGrid? magnitude (shortest magnitude).exponent = some (shortest magnitude) ∧
      ∀ exponent ∈ grids, (shortest magnitude).exponent < exponent →
        onGrid? magnitude exponent = none := by
  rcases hsearch : grids.findSome? (onGrid? magnitude) with - | found
  · -- the exact value is a point of the last grid
    obtain ⟨found, hfound⟩ := exists_onGrid? hfinite (readsBack_exactDecimal hfinite)
    have hnone := List.findSome?_eq_none_iff.1 hsearch _ (mem_grids_iff.2 ⟨le_refl _, by decide⟩)
    rw [exactDecimal] at hfound
    rw [hfound] at hnone
    cases hnone
  · have hshortest : shortest magnitude = found := by
      rw [shortest, if_neg hne, hsearch, Option.getD_some]
    obtain ⟨coarser, exponent, finer, hgrids, hfound, hcoarser⟩ :=
      List.findSome?_eq_some_iff.1 hsearch
    obtain ⟨rfl, -⟩ := onGrid?_eq_some hfound
    rw [hshortest]
    refine ⟨by simp [hgrids], hfound, fun exponent hmem hlt => ?_⟩
    have hpairwise := pairwise_grids
    rw [hgrids, List.pairwise_append, List.pairwise_cons] at hpairwise
    rw [hgrids, List.mem_append, List.mem_cons] at hmem
    rcases hmem with hmem | rfl | hmem
    · exact hcoarser exponent hmem
    · exact absurd hlt (lt_irrefl _)
    · exact absurd (hpairwise.2.1.1 exponent hmem) (lt_asymm hlt)

/-- **The shortest decimal reads back.** -/
theorem readsBack_shortest (hfinite : magnitude < infinity) :
    readsBack magnitude (shortest magnitude) = true := by
  rcases Nat.eq_zero_or_pos magnitude with rfl | hpos
  · decide
  · exact (onGrid?_eq_some (onGrid?_shortest hfinite hpos.ne').2.1).2

theorem digits_pos (hne : magnitude ≠ 0) (h : readsBack magnitude d = true) : 0 < d.digits := by
  rw [Nat.pos_iff_ne_zero]
  intro hzero
  have hvalue : d.value = value 0 := by simp [Decimal.value, value, units, leadingOne, hzero]
  rw [readsBack_iff] at h
  exact hne (h.symm.trans (readsBack_iff.1 (readsBack_of_value (by decide) hvalue)))

/-- From 10^39 on a decimal reads back as the infinity. -/
theorem exponent_le_of_readsBack (hfinite : magnitude < infinity) (hne : magnitude ≠ 0)
    (h : readsBack magnitude d = true) : d.exponent ≤ 38 := by
  have hdigits := digits_pos hne h
  have hinfinity : nearestDecimal 1 39 = infinity := by decide +kernel
  rw [readsBack_iff] at h
  by_contra hlarge
  have hvalue : Decimal.value ⟨1, 39⟩ ≤ d.value := Decimal.value_le hdigits (by omega)
  have hle := nearestDecimal_mono hvalue
  rw [hinfinity, h] at hle
  omega

/-- **No decimal that reads back is coarser.** -/
theorem exponent_le_shortest (hfinite : magnitude < infinity) (hne : magnitude ≠ 0)
    (h : readsBack magnitude d = true) : d.exponent ≤ (shortest magnitude).exponent := by
  obtain ⟨hmem, -, hnone⟩ := onGrid?_shortest hfinite hne
  obtain ⟨found, hfound⟩ := exists_onGrid? hfinite h
  by_contra hlt
  rw [not_le] at hlt
  have hgrid : d.exponent ∈ grids :=
    mem_grids_iff.2 ⟨(mem_grids_iff.1 hmem).1.trans hlt.le, exponent_le_of_readsBack hfinite hne h⟩
  rw [hnone _ hgrid hlt] at hfound
  cases hfound

/-- **The shortest decimal has the fewest digits** of all that read back. -/
theorem shortest_fewest (hfinite : magnitude < infinity) (h : readsBack magnitude d = true) :
    (Nat.toDigits 10 (shortest magnitude).digits).length ≤ (Nat.toDigits 10 d.digits).length := by
  have hcount : 0 < (Nat.toDigits 10 d.digits).length := Nat.length_toDigits_pos
  rcases Nat.eq_zero_or_pos magnitude with rfl | hpos
  · exact hcount
  have hbound := (Nat.length_toDigits_le_iff (by decide) hcount).1 (le_refl _)
  rw [Nat.length_toDigits_le_iff (by decide) hcount]
  generalize (Nat.toDigits 10 d.digits).length = count at hcount hbound ⊢
  by_contra hmore
  rw [not_lt] at hmore
  -- a power of ten lies between, on a coarser grid
  have hpower : readsBack magnitude ⟨1, (shortest magnitude).exponent + count⟩ = true := by
    apply readsBack_of_between h (readsBack_shortest hfinite)
    · rw [← Decimal.value_ten_pow]
      exact Decimal.value_le hbound.le (exponent_le_shortest hfinite hpos.ne' h)
    · rw [← Decimal.value_ten_pow]
      exact Decimal.value_le hmore (le_refl _)
  have hexponent := exponent_le_shortest hfinite hpos.ne' hpower
  simp only at hexponent
  omega

end Binary32

end MeshLayout
