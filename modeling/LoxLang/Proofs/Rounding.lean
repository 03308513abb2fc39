/-
# LoxLang.Proofs.Rounding -- rounding depends on the value alone

A float operation computes its result with more digits than a float has, or with fewer and
a note on what was cut off, and then rounds.  How far it computed does not show: whatever
mantissa, exponent and accuracy describe a value, rounding comes to one float.

An extended mantissa holds a value (`Holds`), and a value is held by one extended mantissa
only.  Shifting keeps what is held, and the grid to which a value is shifted is read off
the value (`grid`).  So the digits at the end of the shift are the same ones, whatever they
were computed from (`round_eq_nearest`).
-/
import Mathlib

namespace LoxLang.Rounding

open Float.Model Float.Model.UnpackedFloat

set_option autoImplicit false

/-! ## Values and the digits that hold them -/

/-- The mantissa is the whole part of `q`, and the two bits say how `q` lies to the middle above it. -/
def Holds (em : ExtendedMantissa) (q : ℚ) : Prop :=
  match em.roundBit, em.stickyBit with
  | false, false => q = em.mantissa
  | false, true => em.mantissa < q ∧ q < em.mantissa + 1 / 2
  | true, false => q = em.mantissa + 1 / 2
  | true, true => em.mantissa + 1 / 2 < q ∧ q < em.mantissa + 1

namespace Holds

variable {em em' : ExtendedMantissa} {q : ℚ}

theorem bounds (holds : Holds em q) : (em.mantissa : ℚ) ≤ q ∧ q < em.mantissa + 1 := by
  obtain ⟨m, r, s⟩ := em
  cases r <;> cases s <;> simp only [Holds] at holds ⊢ <;> constructor <;> linarith

/-- A value is held in one way. -/
theorem unique (holds : Holds em q) (holds' : Holds em' q) : em = em' := by
  have same : em.mantissa = em'.mantissa := by
    obtain ⟨above, below⟩ := holds.bounds
    obtain ⟨above', below'⟩ := holds'.bounds
    have first : (em.mantissa : ℚ) < (em'.mantissa + 1 : ℕ) := by push_cast; linarith
    have second : (em'.mantissa : ℚ) < (em.mantissa + 1 : ℕ) := by push_cast; linarith
    have first := Nat.cast_lt.mp first
    have second := Nat.cast_lt.mp second
    omega
  obtain ⟨m, r, s⟩ := em
  obtain ⟨m', r', s'⟩ := em'
  obtain rfl : m = m' := same
  cases r <;> cases s <;> cases r' <;> cases s' <;> simp only [Holds] at holds holds' <;>
    first | rfl | (exfalso; linarith)

theorem shiftRightOne (holds : Holds em q) : Holds em.shiftRightOne (q / 2) := by
  obtain ⟨m, r, s⟩ := em
  have parts : ((m % 2 : ℕ) : ℚ) + 2 * ((m / 2 : ℕ) : ℚ) = m := by exact_mod_cast Nat.mod_add_div m 2
  rcases Nat.mod_two_eq_zero_or_one m with even | odd
  · rw [even] at parts
    cases r <;> cases s <;> simp [Holds, ExtendedMantissa.shiftRightOne, even] at holds parts ⊢ <;>
      first | linarith | (constructor <;> linarith)
  · rw [odd] at parts
    cases r <;> cases s <;> simp [Holds, ExtendedMantissa.shiftRightOne, odd] at holds parts ⊢ <;>
      first | linarith | (constructor <;> linarith)

theorem shiftRight (holds : Holds em q) (n : ℕ) : Holds (em >>> n) (q / 2 ^ n) := by
  show Holds (n.repeat ExtendedMantissa.shiftRightOne em) (q / 2 ^ n)
  induction n with
  | zero => simpa [Nat.repeat] using holds
  | succ n ih =>
      rw [pow_succ, ← div_div]
      exact ih.shiftRightOne

end Holds

/-! ## The nearest float -/

/-- The exponent of the last binary digit of a float near `v`. -/
def grid (v : ℚ) : ℤ := max (Int.log 2 v - 52) (-1074)

/-- How a part of a unit lies to the middle of the unit. -/
def accuracy (part : ℚ) : Accuracy := if part = 0 then .exact else .inexact (compare part (1 / 2))

/-- The value `v` cut off at its grid and rounded. -/
def nearest (v : ℚ) : UnpackedFloat :=
  let q := v / 2 ^ grid v
  roundWithAccuracy .binary64 .positive ⌊q⌋₊ (grid v) (accuracy (q - ⌊q⌋₊))

/-- A mantissa, an exponent and an accuracy that describe a value. -/
def Describes (m : ℕ) (e : ℤ) (a : Accuracy) (v : ℚ) : Prop :=
  Holds (.ofMantissaAndAccuracy m a) (v / 2 ^ e)

theorem describes_exact (m : ℕ) (e : ℤ) : Describes m e .exact (m * 2 ^ e) := by
  show (m : ℚ) * 2 ^ e / 2 ^ e = m
  field_simp

/-- A part of a unit is described by its accuracy. -/
theorem holds_accuracy (m : ℕ) {part : ℚ} (nonneg : 0 ≤ part) (small : part < 1) :
    Holds (.ofMantissaAndAccuracy m (accuracy part)) (m + part) := by
  unfold accuracy
  split
  · rename_i none
    simp [none, Holds, ExtendedMantissa.ofMantissaAndAccuracy]
  · rename_i some
    have positive : 0 < part := lt_of_le_of_ne nonneg (Ne.symm some)
    rcases lt_trichotomy part (1 / 2) with below | middle | above
    · rw [compare_lt_iff_lt.mpr below]
      simp only [Holds, ExtendedMantissa.ofMantissaAndAccuracy]
      constructor <;> linarith
    · rw [compare_eq_iff_eq.mpr middle]
      simp only [Holds, ExtendedMantissa.ofMantissaAndAccuracy]
      linarith
    · rw [compare_gt_iff_gt.mpr above]
      simp only [Holds, ExtendedMantissa.ofMantissaAndAccuracy]
      constructor <;> linarith

theorem describes_grid {v : ℚ} (positive : 0 < v) :
    let q := v / 2 ^ grid v
    Describes ⌊q⌋₊ (grid v) (accuracy (q - ⌊q⌋₊)) v := by
  intro q
  have nonneg : 0 ≤ q := by positivity
  have above := Nat.floor_le nonneg
  have below := Nat.lt_floor_add_one q
  have holds := holds_accuracy ⌊q⌋₊ (sub_nonneg.mpr above) (by linarith)
  rwa [add_sub_cancel] at holds

section Describes

variable {m : ℕ} {e : ℤ} {a : Accuracy} {v : ℚ}

theorem mantissa_ofMantissaAndAccuracy (m : ℕ) (a : Accuracy) :
    (ExtendedMantissa.ofMantissaAndAccuracy m a).mantissa = m := by
  unfold ExtendedMantissa.ofMantissaAndAccuracy
  split <;> rfl

theorem Describes.bounds (describes : Describes m e a v) : m * 2 ^ e ≤ v ∧ v < (m + 1) * 2 ^ e := by
  obtain ⟨above, below⟩ := Holds.bounds describes
  rw [mantissa_ofMantissaAndAccuracy] at above below
  have unit : (0 : ℚ) < 2 ^ e := by positivity
  exact ⟨(le_div_iff₀ unit).mp above, (div_lt_iff₀ unit).mp below⟩

/-- The first digit of a mantissa is the first digit of what it describes. -/
theorem Describes.log (describes : Describes m e a v) (positive : m ≠ 0) :
    Int.log 2 v = m.log2 + e := by
  obtain ⟨above, below⟩ := describes.bounds
  have unit : (0 : ℚ) < 2 ^ e := by positivity
  have lower : ((2 : ℕ) : ℚ) ^ ((m.log2 : ℤ) + e) ≤ v := by
    have digit : (2 : ℚ) ^ m.log2 ≤ m := by exact_mod_cast Nat.log2_self_le positive
    rw [zpow_add₀ (by norm_num), zpow_natCast]
    push_cast
    exact le_trans (mul_le_mul_of_nonneg_right digit unit.le) above
  have upper : v < ((2 : ℕ) : ℚ) ^ ((m.log2 : ℤ) + e + 1) := by
    have digit : (m : ℚ) + 1 ≤ 2 ^ (m.log2 + 1) := by exact_mod_cast @Nat.lt_log2_self m
    rw [add_right_comm, zpow_add₀ (by norm_num)]
    push_cast
    rw [← Nat.cast_succ, zpow_natCast]
    exact lt_of_lt_of_le below (mul_le_mul_of_nonneg_right digit unit.le)
  have positive : 0 < v := lt_of_lt_of_le (by positivity) lower
  have least := (Int.zpow_le_iff_le_log (by norm_num) positive).mp lower
  have most := (Int.lt_zpow_iff_log_lt (by norm_num) positive).mp upper
  omega

theorem targetExponent_eq (m : ℕ) (e : ℤ) :
    Format.targetExponent .binary64 (totalExponent m e) = max ((m.log2 : ℤ) + e - 52) (-1074) := by
  simp only [Format.targetExponent, totalExponent, Format.mantissaBits, Format.minExponent]
  norm_num
  omega

/-- The exponent at which a mantissa is cut off is read off the value it describes, if the mantissa is
fine enough. -/
theorem Describes.target (describes : Describes m e a v) (positive : 0 < v) (fine : e ≤ grid v) :
    Format.targetExponent .binary64 (totalExponent m e) = grid v := by
  rw [targetExponent_eq]
  by_cases zero : m = 0
  · subst zero
    -- All of the value lies behind the last digit, so the grid is the finest there is.
    obtain ⟨-, below⟩ := describes.bounds
    rw [Nat.cast_zero, zero_add, one_mul] at below
    have small := (Int.lt_zpow_iff_log_lt (b := 2) (by norm_num) positive).mp (by exact_mod_cast below)
    unfold grid at fine ⊢
    simp only [Nat.log2_zero]
    omega
  · rw [grid, describes.log zero]

theorem shift_describes (describes : Describes m e a v) (positive : 0 < v) (fine : e ≤ grid v) :
    ∃ em, shiftToTargetExponent .binary64 m e a = (em, grid v) ∧ Holds em (v / 2 ^ grid v) := by
  have amount : e + ((grid v - e).toNat : ℤ) = grid v := by omega
  refine ⟨ExtendedMantissa.ofMantissaAndAccuracy m a >>> (grid v - e).toNat, ?_, ?_⟩
  · unfold shiftToTargetExponent shiftToExponent
    rw [describes.target positive fine]
    exact Prod.ext rfl amount
  · have shifted := Holds.shiftRight describes (grid v - e).toNat
    rwa [div_div, ← zpow_natCast, ← zpow_add₀ (by norm_num), amount] at shifted

/-- **Rounding depends on the value alone.** -/
theorem round_eq_nearest (describes : Describes m e a v) (positive : 0 < v) (fine : e ≤ grid v) :
    roundWithAccuracy .binary64 .positive m e a = nearest v := by
  obtain ⟨em, shift, holds⟩ := shift_describes describes positive fine
  obtain ⟨em', shift', holds'⟩ := shift_describes (describes_grid positive) positive le_rfl
  unfold nearest roundWithAccuracy
  simp only
  rw [shift, shift', holds.unique holds']

end Describes

/-! ## Operations -/

theorem mul_eq_nearest {m m' : ℕ} {e e' : ℤ} {v : ℚ} (positive : 0 < m) (positive' : 0 < m')
    (product : m * m' * 2 ^ (e + e') = v) (fine : e + e' ≤ grid v) :
    UnpackedFloat.mul .binary64 (.finite .positive m e positive) (.finite .positive m' e' positive') =
      nearest v := by
  have describes : Describes (m * m') (e + e') .exact v := by
    have exact := describes_exact (m * m') (e + e')
    rwa [Nat.cast_mul, product] at exact
  have above : 0 < v := by
    rw [← product]
    positivity
  exact round_eq_nearest describes above fine

theorem accuracyOfFraction_eq (num : ℕ) {den : ℕ} (positive : 0 < den) :
    accuracyOfFraction num den = accuracy (num / den) := by
  have den_pos : (0 : ℚ) < den := Nat.cast_pos.mpr positive
  unfold accuracyOfFraction accuracy
  by_cases zero : num = 0
  · simp [zero]
  · have nonzero : (num : ℚ) / den ≠ 0 := by positivity
    rw [if_neg zero, if_neg nonzero]
    congr 1
    rcases lt_trichotomy (2 * num) den with below | middle | above
    · rw [compare_lt_iff_lt.mpr below, eq_comm, compare_lt_iff_lt, div_lt_iff₀ den_pos]
      have : ((2 * num : ℕ) : ℚ) < den := Nat.cast_lt.mpr below
      push_cast at this
      linarith
    · rw [compare_eq_iff_eq.mpr middle, eq_comm, compare_eq_iff_eq, div_eq_iff den_pos.ne']
      have : ((2 * num : ℕ) : ℚ) = den := congrArg Nat.cast middle
      push_cast at this
      linarith
    · rw [compare_gt_iff_gt.mpr above, eq_comm, compare_gt_iff_gt, lt_div_iff₀ den_pos]
      have : (den : ℚ) < (2 * num : ℕ) := Nat.cast_lt.mpr above
      push_cast at this
      linarith

/-- A quotient with its remainder describes the exact quotient. -/
theorem describes_quotient (num : ℕ) {den : ℕ} (positive : 0 < den) (e : ℤ) :
    Describes (num / den) e (accuracyOfFraction (num % den) den) (num / den * 2 ^ e) := by
  have den_pos : (0 : ℚ) < den := Nat.cast_pos.mpr positive
  have parts : (num : ℚ) / den = (num / den : ℕ) + (num % den : ℕ) / den := by
    rw [eq_comm, add_div' _ _ _ den_pos.ne', div_left_inj' den_pos.ne']
    exact_mod_cast Nat.div_add_mod' num den
  have small : ((num % den : ℕ) : ℚ) / den < 1 := by
    rw [div_lt_one den_pos]
    exact Nat.cast_lt.mpr (Nat.mod_lt num positive)
  have holds := holds_accuracy (num / den) (by positivity) small
  rw [← parts, ← accuracyOfFraction_eq _ positive] at holds
  unfold Describes
  rwa [mul_div_assoc, div_self (by positivity), mul_one]

theorem div_eq_nearest {m m' : ℕ} {e e' : ℤ} {v : ℚ} (positive : 0 < m) (positive' : 0 < m')
    (quotient : m / m' * 2 ^ (e - e') = v) :
    UnpackedFloat.div .binary64 (.finite .positive m e positive) (.finite .positive m' e' positive') =
      nearest v := by
  have m_pos : (0 : ℚ) < m := Nat.cast_pos.mpr positive
  have m'_pos : (0 : ℚ) < m' := Nat.cast_pos.mpr positive'
  have above : 0 < v := by
    rw [← quotient]
    positivity
  -- The first digit of the quotient stands where the first digits of the operands say, or one lower.
  have digit : (m.log2 : ℤ) - m'.log2 + (e - e') - 1 ≤ Int.log 2 v := by
    rw [← Int.zpow_le_iff_le_log (by norm_num) above, ← quotient]
    have first : (2 : ℚ) ^ m.log2 ≤ m := by exact_mod_cast Nat.log2_self_le positive.ne'
    have first' : (m' : ℚ) ≤ 2 ^ (m'.log2 + 1) := by exact_mod_cast (@Nat.lt_log2_self m').le
    have split : ((2 : ℕ) : ℚ) ^ ((m.log2 : ℤ) - m'.log2 + (e - e') - 1) =
        2 ^ m.log2 / 2 ^ (m'.log2 + 1) * 2 ^ (e - e') := by
      rw [← zpow_natCast, ← zpow_natCast, ← zpow_sub₀ (by norm_num), ← zpow_add₀ (by norm_num)]
      push_cast
      congr 1
      omega
    rw [split]
    gcongr
  let t := min (e - e') (Format.targetExponent .binary64 (totalExponent m e - totalExponent m' e'))
  let k := (e - e' - t).toNat
  have fine : t ≤ grid v := by
    have : t ≤ max ((m.log2 : ℤ) - m'.log2 + (e - e') - 53) (-1074) := by
      refine le_trans (min_le_right _ _) (le_of_eq ?_)
      simp only [Format.targetExponent, totalExponent, Format.mantissaBits, Format.minExponent]
      norm_num
      omega
    unfold grid
    omega
  have describes := describes_quotient (m <<< k) positive' t
  have value : ((m <<< k : ℕ) : ℚ) / m' * 2 ^ t = v := by
    have amount : e - e' = k + t := by omega
    rw [← quotient, amount, zpow_add₀ (by norm_num), zpow_natCast, Nat.shiftLeft_eq]
    push_cast
    ring
  rw [value] at describes
  exact round_eq_nearest describes above fine

/-! ## Results -/

theorem roundedMantissa_bounds (em : ExtendedMantissa) :
    em.mantissa ≤ em.roundedMantissa ∧ em.roundedMantissa ≤ em.mantissa + 1 := by
  obtain ⟨m, r, s⟩ := em
  have parity := Nat.mod_lt m (show 0 < 2 by norm_num)
  cases r <;> cases s <;>
    simp only [ExtendedMantissa.roundedMantissa, ExtendedMantissa.accuracy,
      Accuracy.roundToNearestEven] <;> omega

/-- What rounding does with a rounded mantissa: one that has become too long is cut by a digit. -/
theorem shift_rounded {r : ℕ} {e : ℤ} (short : r ≤ 2 ^ 53) (low : -1074 ≤ e) :
    shiftToTargetExponent .binary64 r e .exact =
      if r < 2 ^ 53 then (⟨r, false, false⟩, e) else (⟨2 ^ 52, false, false⟩, e + 1) := by
  split
  · rename_i shorter
    have digits : r.log2 ≤ 52 := by
      by_cases zero : r = 0
      · simp [zero]
      · have := (Nat.log2_lt zero).mpr shorter
        omega
    have still : (Format.targetExponent .binary64 (totalExponent r e) - e).toNat = 0 := by
      rw [targetExponent_eq]
      omega
    simp [shiftToTargetExponent, shiftToExponent, still, HShiftRight.hShiftRight, Nat.repeat,
      ExtendedMantissa.ofMantissaAndAccuracy]
  · obtain rfl : r = 2 ^ 53 := by omega
    have one : (Format.targetExponent .binary64 (totalExponent (2 ^ 53) e) - e).toNat = 1 := by
      rw [targetExponent_eq, Nat.log2_two_pow]
      omega
    simp only [shiftToTargetExponent, shiftToExponent, one]
    rfl

/-- The digits of the nearest float are those of the value at its grid, rounded. -/
theorem nearest_eq {v : ℚ} (positive : 0 < v) {em : ExtendedMantissa}
    (holds : Holds em (v / 2 ^ grid v)) :
    nearest v =
      if zero : em.roundedMantissa = 0 then .zero .positive
      else if em.roundedMantissa < 2 ^ 53 then
        .finite .positive em.roundedMantissa (grid v) (Nat.pos_of_ne_zero zero)
      else .finite .positive (2 ^ 52) (grid v + 1) (Nat.two_pow_pos 52) := by
  obtain ⟨em', shift, holds'⟩ := shift_describes (describes_grid positive) positive le_rfl
  obtain rfl := holds.unique holds'
  have low : -1074 ≤ grid v := le_max_right _ _
  have digits : em.mantissa < 2 ^ 53 := by
    have below : v / 2 ^ grid v < 2 ^ 53 := by
      rw [div_lt_iff₀ (by positivity), ← zpow_natCast, ← zpow_add₀ (by norm_num)]
      have first : Int.log 2 v - 52 ≤ grid v := le_max_left _ _
      exact_mod_cast (Int.lt_zpow_iff_log_lt (b := 2) (by norm_num) positive).mpr (by omega)
    have : (em.mantissa : ℚ) < (2 ^ 53 : ℕ) := by
      push_cast
      exact lt_of_le_of_lt holds.bounds.1 below
    exact Nat.cast_lt.mp this
  have short : em.roundedMantissa ≤ 2 ^ 53 := by
    have := (roundedMantissa_bounds em).2
    omega
  unfold nearest roundWithAccuracy
  simp only
  rw [shift]
  simp only
  rw [shift_rounded short low]
  by_cases shorter : em.roundedMantissa < 2 ^ 53
  · simp only [shorter, ↓reduceIte]
  · have nonzero : em.roundedMantissa ≠ 0 := by omega
    simp only [shorter, nonzero, ↓reduceIte, ↓reduceDIte]
    norm_num

/-- A value with no more digits than its grid has is not changed. -/
theorem nearest_of_canonical {m : ℕ} {e : ℤ} (positive : 0 < m) (short : m < 2 ^ 53) (low : -1074 ≤ e)
    (full : 2 ^ 52 ≤ m ∨ e = -1074) : nearest (m * 2 ^ e) = .finite .positive m e positive := by
  have above : (0 : ℚ) < m * 2 ^ e := by positivity
  have log := (describes_exact m e).log positive.ne'
  have digits : m.log2 ≤ 52 := by
    have := (Nat.log2_lt positive.ne').mpr short
    omega
  have onGrid : grid (m * 2 ^ e) = e := by
    unfold grid
    rw [log]
    rcases full with full | rfl
    · have := (Nat.le_log2 positive.ne').mpr full
      omega
    · omega
  have holds : Holds ⟨m, false, false⟩ (m * 2 ^ e / 2 ^ grid (m * 2 ^ e)) := by
    rw [onGrid]
    exact describes_exact m e
  rw [nearest_eq above holds]
  have rounded : ExtendedMantissa.roundedMantissa ⟨m, false, false⟩ = m := rfl
  simp only [rounded, positive.ne', short, onGrid, ↓reduceDIte, ↓reduceIte]

/-- A value below all floats is rounded to zero. -/
theorem nearest_of_tiny {v : ℚ} (positive : 0 < v) (tiny : v < 2 ^ (-1075 : ℤ)) :
    nearest v = .zero .positive := by
  have small := (Int.lt_zpow_iff_log_lt (b := 2) (by norm_num) positive).mp (by exact_mod_cast tiny)
  have onGrid : grid v = -1074 := by
    unfold grid
    omega
  have holds : Holds ⟨0, false, true⟩ (v / 2 ^ grid v) := by
    rw [onGrid]
    have unit : (0 : ℚ) < 2 ^ (-1074 : ℤ) := zpow_pos (by norm_num) _
    refine ⟨by rw [Nat.cast_zero]; exact div_pos positive unit, ?_⟩
    rw [div_lt_iff₀ unit]
    have half : ((0 : ℕ) + 1 / 2 : ℚ) * 2 ^ (-1074 : ℤ) = 2 ^ (-1075 : ℤ) := by
      rw [show (-1074 : ℤ) = 1 + -1075 by norm_num, zpow_add₀ (by norm_num), zpow_one, Nat.cast_zero,
        zero_add, ← mul_assoc, one_div_mul_cancel (by norm_num), one_mul]
    rwa [half]
  rw [nearest_eq positive holds]
  rfl

/-- A value above all floats is rounded to a float whose exponent is too large. -/
theorem pack_nearest_of_huge {v : ℚ} (huge : 2 ^ 1024 ≤ v) :
    UnpackedFloat.pack .binary64 (nearest v) = packedInfinity .binary64 .positive := by
  have positive : 0 < v := lt_of_lt_of_le (by positivity) huge
  have large : 1024 ≤ Int.log 2 v :=
    (Int.zpow_le_iff_le_log (b := 2) (by norm_num) positive).mp (by exact_mod_cast huge)
  have onGrid : grid v = Int.log 2 v - 52 := by
    unfold grid
    omega
  obtain ⟨em, -, holds⟩ := shift_describes (describes_grid positive) positive le_rfl
  have digits : 2 ^ 52 ≤ em.mantissa := by
    have below := holds.bounds.2
    have least : (2 : ℚ) ^ 52 ≤ v / 2 ^ grid v := by
      rw [le_div_iff₀ (by positivity), ← zpow_natCast, ← zpow_add₀ (by norm_num), onGrid]
      refine le_of_eq_of_le ?_ (Int.zpow_log_le_self (b := 2) (by norm_num) positive)
      push_cast
      congr 1
      omega
    have : ((2 ^ 52 : ℕ) : ℚ) < (em.mantissa + 1 : ℕ) := by
      push_cast
      linarith
    have := Nat.cast_lt.mp this
    omega
  have rounded := (roundedMantissa_bounds em).1
  have overflow {m : ℕ} (pos : 0 < m) {e : ℤ} (big : 972 ≤ e) :
      UnpackedFloat.pack .binary64 (.finite .positive m e pos) = packedInfinity .binary64 .positive := by
    have biased : 2 ^ Format.binary64.exponentBits ≤
        (e + Format.binary64.exponentBias + Format.binary64.mantissaBitsWithoutImplicit).toNat + 1 := by
      simp only [Format.exponentBias]
      norm_num
      omega
    simp only [UnpackedFloat.pack, biased, ↓reduceIte]
  rw [nearest_eq positive holds, dif_neg (by omega)]
  split
  · exact overflow _ (by omega)
  · exact overflow _ (by omega)

end LoxLang.Rounding
