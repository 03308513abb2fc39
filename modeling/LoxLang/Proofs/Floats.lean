/-
# LoxLang.Proofs.Floats -- floats as mantissa and exponent

A float is 64 bits, and the same float is a sign, a mantissa and an exponent.  Between the
two stand packing and unpacking, which undo each other on what floats are (`unpack_pack`,
`pack_unpack_of_valid`), so a float is known by its parts.

With that the arithmetic of decimals can be read as rounding.  A decimal is turned into a
float in one of several ways: by one operation on two exact floats if it is short, by long
arithmetic if it is not, and at once if it is far out of range.  All of them come to the
float nearest to the decimal (`toFloat_eq_nearest`).
-/
import LoxLang.Decimal.Shortest
import LoxLang.Proofs.Rounding

namespace LoxLang.Rounding

open Float.Model Float.Model.UnpackedFloat

set_option autoImplicit false

/-! ## Bits -/

section Bits

variable (b : BitVec Format.binary64.numBits)

theorem toNat_unpackMantissa : (unpackMantissa b).toNat = b.toNat % 2 ^ 52 := by
  simp [unpackMantissa, BitVec.extractLsb, BitVec.extractLsb'_toNat]

theorem toNat_unpackExponent : (unpackExponent b).toNat = b.toNat / 2 ^ 52 % 2 ^ 11 := by
  simp [unpackExponent, BitVec.extractLsb, BitVec.extractLsb'_toNat, Nat.shiftRight_eq_div_pow]

theorem toNat_unpackSign : (unpackSign b).toNat = b.toNat / 2 ^ 63 := by
  have small : b.toNat < 2 ^ 64 := b.isLt
  simp [unpackSign, BitVec.extractLsb, BitVec.extractLsb'_toNat, Nat.shiftRight_eq_div_pow]
  omega

theorem toNat_one_append (mantissa : BitVec 52) : (1#1 ++ mantissa).toNat = mantissa.toNat + 2 ^ 52 := by
  rw [BitVec.toNat_append, ← Nat.shiftLeft_add_eq_or_of_lt mantissa.isLt, Nat.add_comm]
  rfl

end Bits

/-! ## Mantissa and exponent -/

/-- The mantissa and the exponent of a float other than zero. -/
structure Canonical (m : ℕ) (e : ℤ) : Prop where
  positive : 0 < m
  short : m < 2 ^ 53
  low : -1074 ≤ e
  high : e ≤ 971
  full : 2 ^ 52 ≤ m ∨ e = -1074

/-- What floats are when unpacked. -/
def Fits : UnpackedFloat → Prop
  | .finite _ m e _ => Canonical m e
  | _ => True

theorem fits_unpack (b : BitVec Format.binary64.numBits) : Fits (UnpackedFloat.unpack .binary64 b) := by
  have mantissa_lt : (unpackMantissa b).toNat < 2 ^ 52 := (unpackMantissa b).isLt
  have exponent_lt : (unpackExponent b).toNat < 2 ^ 11 := (unpackExponent b).isLt
  unfold UnpackedFloat.unpack
  simp only
  split
  · split <;> trivial
  · rename_i finite
    have notLast : (unpackExponent b).toNat ≠ 2 ^ 11 - 1 := fun last =>
      finite (BitVec.eq_of_toNat_eq last)
    split
    · split
      · trivial
      · rename_i zero nonzero
        have positive : (unpackMantissa b).toNat ≠ 0 := fun none =>
          nonzero (BitVec.eq_of_toNat_eq none)
        rw [zero]
        exact ⟨by omega, by omega, by decide, by decide, .inr rfl⟩
    · rename_i nonzero
      have notFirst : (unpackExponent b).toNat ≠ 0 := fun none => nonzero (BitVec.eq_of_toNat_eq none)
      have bias : Format.exponentBias .binary64 = 1023 := rfl
      show Canonical (1#1 ++ unpackMantissa b).toNat _
      rw [toNat_one_append, bias]
      push_cast
      exact ⟨by omega, by omega, by omega, by omega, .inl (by omega)⟩

theorem exponentBias_eq : Format.exponentBias .binary64 = 1023 := rfl

theorem mantissaBits_eq : Format.mantissaBits .binary64 = 53 := rfl

section Pack

variable {m : ℕ} {e : ℤ} (s : Sign) (canonical : Canonical m e)

include canonical

/-- The bits of a float other than zero: a mantissa of full length stands without its first digit, and a
shorter one beside the smallest exponent. -/
theorem pack_finite :
    UnpackedFloat.pack .binary64 (.finite s m e canonical.positive) =
      packComponents .binary64 s (BitVec.ofNat _ (if 2 ^ 52 ≤ m then (e + 1075).toNat else 0))
        (BitVec.ofNat _ m) := by
  obtain ⟨positive, short, low, high, full⟩ := canonical
  have biased : e + 1023 + 52 = e + 1075 := by omega
  have inside : ¬ 2 ^ 11 ≤ (e + 1075).toNat + 1 := by omega
  have digits : m.log2 + 1 = 53 ↔ 2 ^ 52 ≤ m := by
    have most := (Nat.log2_lt positive.ne').mpr short
    rw [← Nat.le_log2 positive.ne']
    omega
  simp only [UnpackedFloat.pack, exponentBias_eq, mantissaBits_eq, Nat.cast_ofNat, biased]
  rw [if_neg inside]
  by_cases normal : 2 ^ 52 ≤ m
  · rw [if_pos (digits.mpr normal), if_pos normal]
  · rw [if_neg (mt digits.mp normal), if_neg normal]

theorem unpack_pack_finite :
    UnpackedFloat.unpack .binary64 (UnpackedFloat.pack .binary64 (.finite s m e canonical.positive)) =
      .finite s m e canonical.positive := by
  rw [pack_finite s canonical]
  obtain ⟨positive, short, low, high, full⟩ := canonical
  unfold UnpackedFloat.unpack
  simp only [unpackMantissa_packComponents, unpackExponent_packComponents, unpackSign_packComponents,
    Sign.ofBitVec_toBitVec, exponentBias_eq]
  by_cases normal : 2 ^ 52 ≤ m
  · have exponent : (BitVec.ofNat 11 (e + 1075).toNat).toNat = (e + 1075).toNat := by
      rw [BitVec.toNat_ofNat, Nat.mod_eq_of_lt (by omega)]
    have notLast : BitVec.ofNat 11 (e + 1075).toNat ≠ -1#11 := fun last => by
      have := exponent.symm.trans (congrArg BitVec.toNat last)
      simp at this
      omega
    have notFirst : BitVec.ofNat 11 (e + 1075).toNat ≠ 0#11 := fun first => by
      have := exponent.symm.trans (congrArg BitVec.toNat first)
      simp at this
      omega
    have mantissa : (1#1 ++ BitVec.ofNat 52 m).toNat = m := by
      rw [toNat_one_append, BitVec.toNat_ofNat]
      omega
    rw [if_pos normal, if_neg notLast, if_neg notFirst]
    simp only [mantissa, exponent]
    congr 1
    push_cast
    omega
  · have mantissa : (BitVec.ofNat 52 m).toNat = m := by
      rw [BitVec.toNat_ofNat, Nat.mod_eq_of_lt (by omega)]
    have nonzero : BitVec.ofNat 52 m ≠ 0#52 := fun zero => by
      have := mantissa.symm.trans (congrArg BitVec.toNat zero)
      simp at this
      omega
    obtain rfl := full.resolve_left normal
    rw [if_neg normal, if_neg (by decide), if_pos rfl, dif_neg nonzero]
    simp only [mantissa]
    congr 1

end Pack

/-- Unpacking undoes packing. -/
theorem unpack_pack {u : UnpackedFloat} (fits : Fits u) :
    UnpackedFloat.unpack .binary64 (UnpackedFloat.pack .binary64 u) = u := by
  cases u with
  | infinity s => cases s <;> rfl
  | notANumber => rfl
  | zero s => cases s <;> rfl
  | finite s m e positive => exact unpack_pack_finite s fits

/-! ## Floats -/

/-- The parts of a float. -/
def parts (x : Float) : UnpackedFloat := x.toModel.unpack

/-- The float that has the given parts. -/
def ofParts (u : UnpackedFloat) : Float := .ofModel (.pack u)

theorem fits_parts (x : Float) : Fits (parts x) := fits_unpack _

theorem parts_ofParts {u : UnpackedFloat} (fits : Fits u) : parts (ofParts u) = u := unpack_pack fits

theorem ofParts_parts (x : Float) : ofParts (parts x) = x := by
  obtain ⟨bits, valid⟩ := x
  have same : UnpackedFloat.pack .binary64 (UnpackedFloat.unpack .binary64 bits.toBitVec) =
      bits.toBitVec := pack_unpack_of_valid valid
  simp only [ofParts, parts, Float.Model.pack, Float.Model.unpack, same]

theorem fits_neg {u : UnpackedFloat} (fits : Fits u) : Fits u.neg := by
  cases u <;> exact fits

theorem parts_neg (x : Float) : parts (-x) = (parts x).neg := parts_ofParts (fits_neg (fits_parts x))

theorem fits_abs {u : UnpackedFloat} (fits : Fits u) : Fits u.abs := by
  cases u <;> exact fits

theorem parts_abs (x : Float) : parts x.abs = (parts x).abs := parts_ofParts (fits_abs (fits_parts x))

theorem parts_injective {x y : Float} (same : parts x = parts y) : x = y := by
  rw [← ofParts_parts x, same, ofParts_parts]

def isMinus : Sign → Bool
  | .negative => true
  | .positive => false

/-- Whether a float has a minus sign. -/
def isNegative : UnpackedFloat → Bool
  | .infinity s | .zero s | .finite s _ _ _ => isMinus s
  | .notANumber => false

/-- A number is its magnitude with its sign. -/
theorem signed_magnitude {u : UnpackedFloat} (number : u ≠ .notANumber) :
    (if isNegative u then u.abs.neg else u.abs) = u := by
  cases u with
  | notANumber => exact absurd rfl number
  | infinity s => cases s <;> rfl
  | zero s => cases s <;> rfl
  | finite s m e positive => cases s <;> rfl

/-- The bits of a float. -/
def bits (x : Float) : BitVec Format.binary64.numBits := x.toModel.toBits.toBitVec

theorem toNat_field (x : Float) : (x.toBits >>> 52 &&& 0x7ff).toNat = (unpackExponent (bits x)).toNat := by
  rw [toNat_unpackExponent, UInt64.toNat_and, UInt64.toNat_shiftRight]
  show (bits x).toNat >>> 52 &&& (2 ^ 11 - 1) = _
  rw [Nat.and_two_pow_sub_one_eq_mod, Nat.shiftRight_eq_div_pow]

theorem toNat_fraction (x : Float) :
    (x.toBits &&& 0xfffffffffffff).toNat = (unpackMantissa (bits x)).toNat := by
  rw [toNat_unpackMantissa, UInt64.toNat_and]
  show (bits x).toNat &&& (2 ^ 52 - 1) = _
  rw [Nat.and_two_pow_sub_one_eq_mod]

theorem floatSign_eq_ofBitVec (x : Float) :
    floatSign x = isMinus (Sign.ofBitVec (unpackSign (bits x))) := by
  have shifted : (x.toBits >>> 63).toNat = (unpackSign (bits x)).toNat := by
    rw [toNat_unpackSign, UInt64.toNat_shiftRight]
    exact Nat.shiftRight_eq_div_pow _ _
  unfold floatSign
  rw [show (x.toBits >>> 63 == 1) = decide ((x.toBits >>> 63).toNat = 1) by
    rw [Bool.eq_iff_iff, beq_iff_eq, decide_eq_true_iff, ← UInt64.toNat_inj]; rfl, shifted]
  generalize unpackSign (bits x) = v
  revert v
  decide

/-- The sign of a number. -/
theorem floatSign_eq {x : Float} (number : parts x ≠ .notANumber) :
    floatSign x = isNegative (parts x) := by
  rw [floatSign_eq_ofBitVec]
  show _ = isNegative (UnpackedFloat.unpack .binary64 (bits x))
  have number : UnpackedFloat.unpack .binary64 (bits x) ≠ .notANumber := number
  unfold UnpackedFloat.unpack at number ⊢
  simp only at number ⊢
  split
  · split
    · rfl
    · rename_i last nonzero
      rw [if_pos last, if_neg nonzero] at number
      exact absurd rfl number
  · split
    · split <;> rfl
    · rfl

theorem floatParts_eq (x : Float) :
    floatParts x =
      if unpackExponent (bits x) = 0#11 then ((unpackMantissa (bits x)).toNat, (-1074 : ℤ))
      else ((1#1 ++ unpackMantissa (bits x)).toNat, ((unpackExponent (bits x)).toNat - 1075 : ℤ)) := by
  unfold floatParts
  simp only [toNat_field, toNat_fraction]
  by_cases first : unpackExponent (bits x) = 0#11
  · simp [first]
  · have nonzero : (unpackExponent (bits x)).toNat ≠ 0 := fun none =>
      first (BitVec.eq_of_toNat_eq none)
    rw [if_neg first, if_neg nonzero, toNat_one_append]
    rfl

theorem floatParts_of_finite {x : Float} {s : Sign} {m : ℕ} {e : ℤ} {positive : 0 < m}
    (finite : parts x = .finite s m e positive) : floatParts x = (m, e) := by
  have finite : UnpackedFloat.unpack .binary64 (bits x) = .finite s m e positive := finite
  rw [floatParts_eq]
  unfold UnpackedFloat.unpack at finite
  simp only at finite
  split at finite
  · split at finite <;> cases finite
  · split at finite
    · rename_i first
      split at finite
      · cases finite
      · cases finite
        rw [if_pos first, first]
        rfl
    · rename_i notFirst
      cases finite
      rw [if_neg notFirst]
      rfl

theorem floatParts_of_zero {x : Float} {s : Sign} (zero : parts x = .zero s) :
    floatParts x = (0, -1074) := by
  have zero : UnpackedFloat.unpack .binary64 (bits x) = .zero s := zero
  rw [floatParts_eq]
  unfold UnpackedFloat.unpack at zero
  simp only at zero
  split at zero
  · split at zero <;> cases zero
  · split at zero
    · rename_i first
      split at zero
      · rename_i none
        rw [if_pos first, none]
        rfl
      · cases zero
    · cases zero

/-! ## Decimals -/

/-- Whether a float is a power of ten, with a mantissa of full length. -/
def isPowerOfTen (e : ℕ) : UnpackedFloat → Bool
  | .finite .positive m q _ => m * 2 ^ q.toNat = 10 ^ e * 2 ^ (-q).toNat && 2 ^ 52 ≤ m
  | _ => false

theorem isPowerOfTen_table :
    ∀ e (inside : e < Float.exactlyRepresentablePowersOfTen.size),
      isPowerOfTen e (parts Float.exactlyRepresentablePowersOfTen[e]) := by
  decide +kernel

theorem exists_power {e : ℕ} (inside : e < Float.exactlyRepresentablePowersOfTen.size) :
    ∃ m q, ∃ positive : 0 < m, parts Float.exactlyRepresentablePowersOfTen[e] =
      .finite .positive m q positive ∧ (m : ℚ) * 2 ^ q = 10 ^ e ∧ 2 ^ 52 ≤ m := by
  have power := isPowerOfTen_table e inside
  cases same : parts Float.exactlyRepresentablePowersOfTen[e] with
  | finite s m q positive =>
      rw [same] at power
      cases s with
      | negative => cases power
      | positive =>
          simp only [isPowerOfTen, Bool.and_eq_true, decide_eq_true_eq] at power
          refine ⟨m, q, positive, rfl, ?_, power.2⟩
          have value : (m : ℚ) * 2 ^ q.toNat = 10 ^ e * 2 ^ (-q).toNat := by exact_mod_cast power.1
          have split : (2 : ℚ) ^ q * 2 ^ (-q).toNat = 2 ^ q.toNat := by
            rw [← zpow_natCast, ← zpow_natCast, ← zpow_add₀ (by norm_num)]
            congr 1
            omega
          have unit : (2 : ℚ) ^ (-q).toNat ≠ 0 := by positivity
          exact mul_right_cancel₀ unit (by rw [mul_assoc, split, value])
  | infinity s => rw [same] at power; cases power
  | notANumber => rw [same] at power; cases power
  | zero s => rw [same] at power; cases power

/-- A natural number that has no more digits than a mantissa can be shifted to the length of one. -/
theorem exists_shift {n : ℕ} (nonzero : 0 < n) (short : n < 2 ^ 53) :
    ∃ k, n.log2 + k = 52 ∧ ((n * 2 ^ k : ℕ) : ℚ) * 2 ^ (-k : ℤ) = n := by
  have digits : n.log2 ≤ 52 := by
    have := (Nat.log2_lt nonzero.ne').mpr short
    omega
  refine ⟨52 - n.log2, by omega, ?_⟩
  rw [Nat.cast_mul, Nat.cast_pow, mul_assoc, zpow_neg, zpow_natCast, Nat.cast_two,
    mul_inv_cancel₀ (by positivity), mul_one]

theorem ofNat_eq_nearest {n : ℕ} (nonzero : 0 < n) (short : n < 2 ^ 53) :
    UnpackedFloat.ofNat .binary64 n = nearest n := by
  obtain ⟨k, split, value⟩ := exists_shift nonzero short
  have target : Format.targetExponent .binary64 (totalExponent n 0) = -k := by
    rw [targetExponent_eq]
    omega
  have above : compare (n : ℤ) 0 = .gt := compare_gt_iff_gt.mpr (by exact_mod_cast nonzero)
  have log := (describes_exact n 0).log nonzero.ne'
  rw [zpow_zero, mul_one] at log
  have describes := describes_exact (n * 2 ^ k) (-k)
  rw [value] at describes
  have rounded := round_eq_nearest describes (Nat.cast_pos.mpr nonzero) (by unfold grid; omega)
  unfold UnpackedFloat.ofNat UnpackedFloat.ofInt UnpackedFloat.normalize
  rw [above]
  simp only [UnpackedFloat.round, decreaseExponent, Int.toNat_natCast, target, sub_neg_eq_add, zero_add,
    zero_sub, Nat.shiftLeft_eq]
  exact rounded

/-- A natural number that has no more digits than a mantissa is a float. -/
theorem exists_natural {n : ℕ} (nonzero : 0 < n) (short : n < 2 ^ 53) :
    ∃ m q, ∃ positive : 0 < m, parts n.toUInt64.toFloat = .finite .positive m q positive ∧
      (m : ℚ) * 2 ^ q = n ∧ 2 ^ 52 ≤ m := by
  have most := @Nat.lt_log2_self n
  have least := Nat.log2_self_le nonzero.ne'
  obtain ⟨k, split, value⟩ := exists_shift nonzero short
  have positive : 0 < n * 2 ^ k := by positivity
  have full : 2 ^ 52 ≤ n * 2 ^ k := by
    rw [← split, pow_add]
    exact Nat.mul_le_mul_right _ least
  have canonical : Canonical (n * 2 ^ k) (-k) := by
    refine ⟨positive, ?_, by omega, by omega, .inl full⟩
    rw [show 53 = n.log2 + 1 + k by omega, pow_add]
    exact Nat.mul_lt_mul_of_pos_right most (by positivity)
  have exact := nearest_of_canonical positive canonical.short canonical.low canonical.full
  rw [value] at exact
  refine ⟨n * 2 ^ k, -k, positive, ?_, value, full⟩
  have small : n.toUInt64.toNat = n := by
    rw [Nat.toUInt64, UInt64.toNat_ofNat']
    exact Nat.mod_eq_of_lt (by omega)
  show parts (ofParts (UnpackedFloat.ofNat .binary64 n.toUInt64.toNat)) = _
  rw [small, ofNat_eq_nearest nonzero short, exact]
  exact parts_ofParts canonical

/-- The float nearest to a value. -/
def nearestFloat (v : ℚ) : Float := ofParts (nearest v)

theorem nearestFloat_of_tiny {v : ℚ} (positive : 0 < v) (tiny : v < 2 ^ (-1075 : ℤ)) :
    nearestFloat v = ofParts (.zero .positive) := by
  rw [nearestFloat, nearest_of_tiny positive tiny]

theorem nearestFloat_of_huge {v : ℚ} (huge : 2 ^ 1024 ≤ v) :
    nearestFloat v = ofParts (.infinity .positive) := by
  have same : UnpackedFloat.pack .binary64 (nearest v) =
      UnpackedFloat.pack .binary64 (.infinity .positive) := pack_nearest_of_huge huge
  simp only [nearestFloat, ofParts, Float.Model.pack, same]

theorem huge_of_exponent {m : ℕ} (positive : 0 < m) {e : ℤ} (many : 1024 ≤ e) :
    (2 : ℚ) ^ 1024 ≤ m * 10 ^ e := by
  calc (2 : ℚ) ^ 1024
    _ ≤ 10 ^ 1024 := pow_le_pow_left₀ (by norm_num) (by norm_num) _
    _ = 10 ^ (1024 : ℤ) := (zpow_natCast _ _).symm
    _ ≤ 10 ^ e := zpow_le_zpow_right₀ (by norm_num) many
    _ ≤ m * 10 ^ e := le_mul_of_one_le_left (by positivity) (by exact_mod_cast positive)

theorem tiny_of_exponent {m n : ℕ} (many : m.log2 + 1 + 1075 ≤ n) :
    (m : ℚ) * 10 ^ (-n : ℤ) < 2 ^ (-1075 : ℤ) := by
  have few : m * 2 ^ 1075 < 10 ^ n := by
    calc m * 2 ^ 1075
      _ < 2 ^ (m.log2 + 1) * 2 ^ 1075 := Nat.mul_lt_mul_of_pos_right Nat.lt_log2_self (by positivity)
      _ = 2 ^ (m.log2 + 1 + 1075) := (pow_add _ _ _).symm
      _ ≤ 2 ^ n := Nat.pow_le_pow_right (by norm_num) many
      _ ≤ 10 ^ n := Nat.pow_le_pow_left (by norm_num) n
  have few : (m : ℚ) * 2 ^ 1075 < 10 ^ n := by exact_mod_cast few
  rw [zpow_neg, zpow_natCast, ← div_eq_mul_inv, div_lt_iff₀ (by positivity),
    show (-1075 : ℤ) = -((1075 : ℕ) : ℤ) from rfl, zpow_neg, zpow_natCast, inv_mul_eq_div,
    lt_div_iff₀ (by positivity)]
  exact few

/-- A decimal is computed to its nearest float, whatever its exponent. -/
theorem ofScientific_eq_nearest {m : ℕ} (nonzero : m ≠ 0) (e : ℤ) :
    ofParts (UnpackedFloat.ofScientific .binary64 m e) = nearestFloat (m * 10 ^ e) := by
  have positive : 0 < m := Nat.pos_of_ne_zero nonzero
  have above : (0 : ℚ) < m * 10 ^ e := by positivity
  unfold UnpackedFloat.ofScientific
  rw [dif_neg nonzero]
  split
  · rename_i large
    norm_num at large
    exact (nearestFloat_of_huge (huge_of_exponent positive (by omega))).symm
  · split
    · rename_i small
      norm_num at small
      obtain ⟨n, rfl⟩ : ∃ n : ℕ, e = -n := ⟨(-e).toNat, by omega⟩
      exact (nearestFloat_of_tiny above (tiny_of_exponent (by omega))).symm
    · split
      · rename_i natural
        obtain ⟨n, rfl⟩ : ∃ n : ℕ, e = n := ⟨e.toNat, by omega⟩
        refine congrArg ofParts (mul_eq_nearest _ _ ?_ ?_)
        · rw [Nat.shiftLeft_eq, mantissaBits_eq, Int.toNat_natCast, zpow_natCast, add_zero]
          push_cast
          rw [zpow_neg, show (2 : ℚ) ^ (53 : ℤ) = 9007199254740992 by norm_num]
          field_simp
        · have one : (1 : ℚ) ≤ m * 10 ^ (n : ℤ) := by
            rw [zpow_natCast]
            exact_mod_cast Nat.mul_pos positive (by positivity)
          have log : 0 ≤ Int.log 2 ((m : ℚ) * 10 ^ (n : ℤ)) :=
            (Int.zpow_le_iff_le_log (by norm_num) above).mp (by rw [zpow_zero]; exact one)
          unfold grid
          rw [mantissaBits_eq]
          omega
      · rename_i negative
        obtain ⟨n, rfl⟩ : ∃ n : ℕ, e = -n := ⟨(-e).toNat, by omega⟩
        refine congrArg ofParts (div_eq_nearest _ _ ?_)
        rw [neg_neg, Int.toNat_natCast, sub_zero, zpow_zero, mul_one, zpow_neg, zpow_natCast]
        push_cast
        rw [div_eq_mul_inv]

theorem size_powersOfTen : Float.exactlyRepresentablePowersOfTen.size = 23 := rfl

section Fast

variable {n k : ℕ} (nonzero : 0 < n) (short : n < 2 ^ 53)
  (inside : k < Float.exactlyRepresentablePowersOfTen.size)

include nonzero short

/-- Two exact floats are divided with one rounding. -/
theorem div_power :
    ofParts (UnpackedFloat.div .binary64 (parts n.toUInt64.toFloat)
      (parts Float.exactlyRepresentablePowersOfTen[k])) = nearestFloat (n * 10 ^ (-k : ℤ)) := by
  obtain ⟨m, q, m_pos, natural, value, -⟩ := exists_natural nonzero short
  obtain ⟨m', q', m'_pos, power, value', -⟩ := exists_power inside
  rw [natural, power]
  refine congrArg ofParts (div_eq_nearest m_pos m'_pos ?_)
  rw [zpow_neg, zpow_natCast, ← value', ← value, zpow_sub₀ (by norm_num)]
  field_simp

/-- Two exact floats are multiplied with one rounding. -/
theorem mul_power :
    ofParts (UnpackedFloat.mul .binary64 (parts n.toUInt64.toFloat)
      (parts Float.exactlyRepresentablePowersOfTen[k])) = nearestFloat (n * 10 ^ (k : ℤ)) := by
  obtain ⟨m, q, m_pos, natural, value, full⟩ := exists_natural nonzero short
  obtain ⟨m', q', m'_pos, power, value', -⟩ := exists_power inside
  rw [natural, power]
  have product : (m : ℚ) * m' * 2 ^ (q + q') = n * 10 ^ (k : ℤ) := by
    rw [zpow_natCast, ← value', ← value, zpow_add₀ (by norm_num)]
    ring
  refine congrArg ofParts (mul_eq_nearest m_pos m'_pos product ?_)
  -- The product has at least the digits of a mantissa, so its last one lies on the grid or below.
  have long : 52 ≤ (m * m').log2 :=
    (Nat.le_log2 (by positivity)).mpr (le_trans full (Nat.le_mul_of_pos_right m m'_pos))
  have describes := describes_exact (m * m') (q + q')
  rw [Nat.cast_mul, product] at describes
  have log := describes.log (by positivity)
  unfold grid
  rw [log]
  omega

end Fast

/-- **Decimals are read as their nearest floats.** -/
theorem toFloat_eq_nearest {d : Decimal} (nonzero : d.digits ≠ 0) :
    d.toFloat = nearestFloat (d.digits * 10 ^ d.exponent) := by
  obtain ⟨n, e⟩ := d
  have positive : 0 < n := Nat.pos_of_ne_zero nonzero
  unfold Decimal.toFloat Float.ofScientific
  simp only
  split
  · rename_i fast
    have inside : e.natAbs < Float.exactlyRepresentablePowersOfTen.size := by
      rw [size_powersOfTen]
      omega
    by_cases negative : e < 0
    · have exponent : -(e.natAbs : ℤ) = e := by omega
      have quotient := div_power positive fast.1 inside
      rw [exponent] at quotient
      simp only [negative, decide_true, ↓reduceIte]
      exact quotient
    · have exponent : (e.natAbs : ℤ) = e := by omega
      have product := mul_power positive fast.1 inside
      rw [exponent] at product
      simp only [negative, decide_false]
      exact product
  · have exponent : (if decide (e < 0) = true then Int.negOfNat e.natAbs else Int.ofNat e.natAbs) = e := by
      split
      · rename_i negative
        rw [Int.negOfNat_eq, Int.ofNat_eq_natCast]
        have := of_decide_eq_true negative
        omega
      · rename_i natural
        have := mt decide_eq_true natural
        show (e.natAbs : ℤ) = e
        omega
    rw [exponent]
    exact ofScientific_eq_nearest nonzero e

/-- The decimal without digits is zero. -/
theorem toFloat_of_zero (e : ℤ) : Decimal.toFloat ⟨0, e⟩ = ofParts (.zero .positive) := by
  unfold Decimal.toFloat Float.ofScientific
  simp only
  split
  · rename_i fast
    have inside : e.natAbs < Float.exactlyRepresentablePowersOfTen.size := by
      rw [size_powersOfTen]
      omega
    obtain ⟨m, q, m_pos, power, -⟩ := exists_power inside
    have zero : parts (Nat.toUInt64 0).toFloat = .zero .positive := rfl
    split
    · show ofParts (UnpackedFloat.div .binary64 (parts (Nat.toUInt64 0).toFloat)
        (parts Float.exactlyRepresentablePowersOfTen[e.natAbs])) = _
      rw [zero, power]
      rfl
    · show ofParts (UnpackedFloat.mul .binary64 (parts (Nat.toUInt64 0).toFloat)
        (parts Float.exactlyRepresentablePowersOfTen[e.natAbs])) = _
      rw [zero, power]
      rfl
  · rfl

end LoxLang.Rounding
