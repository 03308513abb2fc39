/-
# LoxLang.Proofs.NumberText -- numbers read back from their text

A number is written with the fewest digits that give it back, which the writer makes sure
of as it goes: it tries decimals of growing length, and the last resort is the exact value
of the float (`toFloat_shortest`).  The digits are then laid out with a point, with zeros
or with an exponent.  Every layout is a `Form`, and what a form denotes is read off its
digits and its exponent alone, so no layout changes the number (`form_of_literal`).  The
plain layout does without an exponent (`form_of_plain`).
-/
import LoxLang.Number
import LoxLang.Numeral
import LoxLang.Proofs.Floats

namespace LoxLang

open Rounding Float.Model Float.Model.UnpackedFloat

set_option autoImplicit false

/-! ## Shortest decimals -/

namespace Decimal

/-- The number that a decimal denotes. -/
def value (d : Decimal) : ℚ := d.digits * 10 ^ d.exponent

theorem value_dropZeros (fuel : ℕ) (d : Decimal) : (dropZeros fuel d).value = d.value := by
  fun_induction dropZeros fuel d with
  | case1 => rfl
  | case2 fuel d zeros ih =>
      rw [ih]
      simp only [Bool.and_eq_true, decide_eq_true_eq] at zeros
      have whole : d.digits = d.digits / 10 * 10 := by omega
      unfold value
      rw [zpow_add₀ (by norm_num), zpow_one]
      conv_rhs => rw [whole]
      push_cast
      ring
  | case3 => rfl

theorem digits_dropZeros {d : Decimal} (nonzero : d.digits ≠ 0) (fuel : ℕ) :
    (dropZeros fuel d).digits ≠ 0 := by
  fun_induction dropZeros fuel d with
  | case1 => exact nonzero
  | case2 fuel d zeros ih =>
      simp only [Bool.and_eq_true, decide_eq_true_eq] at zeros
      exact ih (by simp only; omega)
  | case3 => exact nonzero

theorem toFloat_eq {d : Decimal} (nonzero : d.digits ≠ 0) : d.toFloat = nearestFloat d.value :=
  toFloat_eq_nearest nonzero

end Decimal

namespace Rounding

variable {x : Float} {s : Sign} {m : ℕ} {e : ℤ} {positive : 0 < m}

/-- A float is the nearest one to its own value. -/
theorem nearestFloat_abs (finite : parts x = .finite s m e positive) :
    nearestFloat (m * 2 ^ e) = x.abs := by
  have fits := fits_parts x
  rw [finite] at fits
  have canonical : Canonical m e := fits
  apply parts_injective
  rw [parts_abs, finite, nearestFloat,
    nearest_of_canonical positive canonical.short canonical.low canonical.full]
  exact parts_ofParts canonical

theorem value_exact (finite : parts x = .finite s m e positive) : (Decimal.exact x).value = m * 2 ^ e := by
  unfold Decimal.exact Decimal.value
  rw [floatParts_of_finite finite]
  simp only
  split
  · rename_i natural
    obtain ⟨n, rfl⟩ : ∃ n : ℕ, e = n := ⟨e.toNat, by omega⟩
    simp
  · rename_i negative
    obtain ⟨n, rfl⟩ : ∃ n : ℕ, e = -n := ⟨(-e).toNat, by omega⟩
    have split : (10 : ℚ) ^ n = 2 ^ n * 5 ^ n := by rw [← mul_pow]; norm_num
    simp only [neg_neg, Int.toNat_natCast, zpow_neg, zpow_natCast, split, Nat.pow_eq]
    push_cast
    field_simp

theorem eq_of_toBits {x y : Float} (same : x.toBits = y.toBits) : x = y := by
  obtain ⟨bits, valid⟩ := x
  obtain ⟨bits', valid'⟩ := y
  obtain rfl : bits = bits' := same
  rfl

/-- The shortest decimal of a float reads back as its magnitude. -/
theorem toFloat_shortest (finite : parts x = .finite s m e positive) :
    (Decimal.shortest x).digits ≠ 0 ∧ (Decimal.shortest x).toFloat = x.abs := by
  have normal {d : Decimal} (nonzero : d.digits ≠ 0) (reads : nearestFloat d.value = x.abs) :
      d.normal.digits ≠ 0 ∧ d.normal.toFloat = x.abs := by
    have kept : d.normal.digits ≠ 0 := Decimal.digits_dropZeros nonzero _
    have value : d.normal.value = d.value := Decimal.value_dropZeros _ d
    exact ⟨kept, by rw [Decimal.toFloat_eq kept, value, reads]⟩
  unfold Decimal.shortest
  simp only
  generalize searched : List.find? _ _ = found
  cases found with
  | some d =>
      have reads : d.toFloat = x.abs := by
        have := List.find?_some searched
        exact eq_of_toBits (beq_iff_eq.mp this)
      have nonzero : d.digits ≠ 0 := by
        intro zero
        obtain ⟨digits, exponent⟩ := d
        obtain rfl : digits = 0 := zero
        rw [toFloat_of_zero] at reads
        have same := congrArg parts reads
        rw [parts_ofParts (show Fits (.zero .positive) from trivial), parts_abs, finite] at same
        cases same
      rw [Decimal.toFloat_eq nonzero] at reads
      exact normal nonzero reads
  | none =>
      have reads := nearestFloat_abs finite
      rw [← value_exact finite] at reads
      refine normal (fun zero => ?_) reads
      have value : (Decimal.exact x).value ≠ 0 := by
        rw [value_exact finite]
        positivity
      rw [Option.getD_none] at zero
      exact value (by rw [Decimal.value, zero, Nat.cast_zero, zero_mul])

end Rounding

/-! ## Written numbers -/

namespace Numeral

theorem zero_eq : (0 : Float) = ofParts (.zero .positive) := rfl

theorem infinity_eq : Float.ofBits 0x7ff0000000000000 = ofParts (.infinity .positive) := rfl

/-- A number with as many digits as its width lies between two powers of ten. -/
theorem width_bounds {n : ℕ} (nonzero : n ≠ 0) :
    10 ^ (Decimal.width n - 1) ≤ n ∧ n < 10 ^ Decimal.width n := by
  have some : 0 < Decimal.width n := Nat.length_toDigits_pos
  constructor
  · by_cases one : Decimal.width n = 1
    · rw [one]
      exact Nat.pos_of_ne_zero nonzero
    · by_contra less
      have := (Nat.length_toDigits_le_iff (by norm_num) (by omega)).mpr (not_le.mp less)
      unfold Decimal.width at this some one
      omega
  · exact (Nat.length_toDigits_le_iff (by norm_num) some).mp le_rfl

/-- **Written digits are read as the nearest float.**  The exponents that are settled without computing
are settled rightly. -/
theorem float_eq (whole fraction : List ℕ) (exponent : ℤ)
    (nonzero : ofDigits (whole ++ fraction) ≠ 0) :
    float whole fraction exponent =
      nearestFloat (ofDigits (whole ++ fraction) * 10 ^ (exponent - fraction.length)) := by
  obtain ⟨least, most⟩ := width_bounds nonzero
  have some : 0 < Decimal.width (ofDigits (whole ++ fraction)) := Nat.length_toDigits_pos
  unfold float
  simp only
  rw [if_neg nonzero]
  generalize ofDigits (whole ++ fraction) = n at nonzero least most some ⊢
  generalize exponent - (fraction.length : ℤ) = e
  generalize Decimal.width n = w at least most some ⊢
  have least : (10 : ℚ) ^ (w - 1) ≤ n := by exact_mod_cast least
  have most : (n : ℚ) < 10 ^ w := by exact_mod_cast most
  have unit : (0 : ℚ) < 10 ^ e := by positivity
  have positive : (0 : ℚ) < n := Nat.cast_pos.mpr (Nat.pos_of_ne_zero nonzero)
  split
  · rename_i low
    rw [zero_eq, nearestFloat_of_tiny (by positivity)]
    calc (n : ℚ) * 10 ^ e
      _ < 10 ^ w * 10 ^ e := mul_lt_mul_of_pos_right most unit
      _ = 10 ^ ((w : ℤ) + e) := by rw [zpow_add₀ (by norm_num), zpow_natCast]
      _ ≤ 10 ^ (-400 : ℤ) := zpow_le_zpow_right₀ (by norm_num) (by omega)
      _ ≤ 2 ^ (-1075 : ℤ) := by
        have powers : (2 : ℚ) ^ 1075 ≤ 10 ^ 400 := by
          exact_mod_cast (show 2 ^ 1075 ≤ 10 ^ 400 by decide +kernel)
        rw [show (-400 : ℤ) = -((400 : ℕ) : ℤ) from rfl, show (-1075 : ℤ) = -((1075 : ℕ) : ℤ) from rfl,
          zpow_neg, zpow_neg, zpow_natCast, zpow_natCast]
        exact inv_anti₀ (by positivity) powers
  · split
    · rename_i high
      rw [infinity_eq, nearestFloat_of_huge]
      calc (2 : ℚ) ^ 1024
        _ ≤ 10 ^ 400 := by exact_mod_cast (show 2 ^ 1024 ≤ 10 ^ 400 by decide +kernel)
        _ = 10 ^ ((400 : ℕ) : ℤ) := (zpow_natCast _ _).symm
        _ ≤ 10 ^ (((w - 1 : ℕ) : ℤ) + e) := zpow_le_zpow_right₀ (by norm_num) (by push_cast; omega)
        _ = 10 ^ (w - 1) * 10 ^ e := by rw [zpow_add₀ (by norm_num), zpow_natCast]
        _ ≤ n * 10 ^ e := mul_le_mul_of_nonneg_right least unit.le
    · exact toFloat_eq_nearest nonzero

/-- A number as it is written: digits, digits behind a point, and an exponent if there is one. -/
structure Form where
  whole : List Char
  fraction : List Char
  exponent : Option (Bool × List Char)

namespace Form

/-- The point and the digits behind it, if there are any. -/
def fractionChars (f : Form) : List Char := if f.fraction.isEmpty then [] else '.' :: f.fraction

def exponentChars (f : Form) : List Char :=
  match f.exponent with
  | none => []
  | some (negative, digits) => 'e' :: (if negative then '-' else '+') :: digits

def chars (f : Form) : List Char := f.whole ++ f.fractionChars ++ f.exponentChars

/-- The exponent of a written number. -/
def power (f : Form) : ℤ :=
  match f.exponent with
  | none => 0
  | some (negative, digits) => integer negative (digits.map digit)

/-- The float that a written number is read as. -/
def float (f : Form) : Float := Numeral.float (f.whole.map digit) (f.fraction.map digit) f.power

/-- The forms that are read as a float: digits, without zeros in front, and a point or an exponent. -/
structure Valid (f : Form) : Prop where
  whole : ∀ c ∈ f.whole, c.isDigit
  leading : f.whole = ['0'] ∨ ∃ c rest, f.whole = c :: rest ∧ c ≠ '0'
  fraction : ∀ c ∈ f.fraction, c.isDigit
  exponent : ∀ negative digits, f.exponent = some (negative, digits) →
    digits ≠ [] ∧ ∀ c ∈ digits, c.isDigit
  real : f.fraction ≠ [] ∨ f.exponent ≠ none

/-- The forms without exponent that have digits in front of the point, and behind it if there is one. -/
structure Plain (f : Form) : Prop where
  nonempty : f.whole ≠ []
  whole : ∀ c ∈ f.whole, c.isDigit
  fraction : ∀ c ∈ f.fraction, c.isDigit
  exponent : f.exponent = none

theorem ofDigits_map (cs : List Char) : ofDigits (cs.map digit) = Nat.ofDigitChars 10 cs 0 := by
  rw [ofDigits, List.foldl_map, Nat.ofDigitChars_eq_foldl]
  rfl

theorem float_eq_nearest (f : Form) (nonzero : Nat.ofDigitChars 10 (f.whole ++ f.fraction) 0 ≠ 0) :
    f.float = nearestFloat
      (Nat.ofDigitChars 10 (f.whole ++ f.fraction) 0 * 10 ^ (f.power - f.fraction.length)) := by
  rw [← ofDigits_map, List.map_append] at nonzero ⊢
  rw [float, Numeral.float_eq _ _ _ nonzero, List.length_map]

end Form

/-! ### Layouts -/

/-- The digits of a number other than zero do not start with a zero. -/
theorem head_toDigits {n : ℕ} (nonzero : n ≠ 0) : ∃ c rest, Nat.toDigits 10 n = c :: rest ∧ c ≠ '0' := by
  induction n using Nat.strongRecOn with
  | ind n ih =>
      rw [Nat.toDigits_eq_if (by norm_num)]
      split
      · rename_i small
        refine ⟨_, [], rfl, ?_⟩
        interval_cases n <;> first | exact absurd rfl nonzero | decide
      · rename_i large
        obtain ⟨c, rest, same, first⟩ := ih (n / 10) (by omega) (by omega)
        exact ⟨c, rest ++ [Nat.digitChar (n % 10)], by rw [same]; rfl, first⟩

theorem isDigit_toDigits (n : ℕ) : ∀ c ∈ Nat.toDigits 10 n, c.isDigit :=
  fun _ member => Nat.isDigit_of_mem_toDigits (by norm_num) le_rfl member

theorem isDigit_zeros (k : ℕ) : ∀ c ∈ List.replicate k '0', c.isDigit := by
  intro c member
  rw [List.eq_of_mem_replicate member]
  rfl

/-- Zeros in front of digits do not count. -/
theorem ofDigitChars_padded (k n : ℕ) :
    Nat.ofDigitChars 10 (List.replicate k '0' ++ Nat.toDigits 10 n) 0 = n := by
  rw [Nat.ofDigitChars_append, Nat.ofDigitChars_replicate_zero, Nat.mul_zero,
    Nat.ofDigitChars_ten_toDigits]

theorem isDigit_padded (k n : ℕ) : ∀ c ∈ List.replicate k '0' ++ Nat.toDigits 10 n, c.isDigit := by
  intro c member
  rcases List.mem_append.mp member with left | right
  · exact isDigit_zeros k c left
  · exact isDigit_toDigits n c right

/-- Zeros behind digits multiply by ten. -/
theorem ofDigitChars_scaled (n k : ℕ) :
    Nat.ofDigitChars 10 (Nat.toDigits 10 n ++ List.replicate k '0') 0 = n * 10 ^ k := by
  rw [Nat.ofDigitChars_append, Nat.ofDigitChars_ten_toDigits, Nat.ofDigitChars_replicate_zero,
    Nat.mul_comm]

theorem isDigit_scaled (n k : ℕ) : ∀ c ∈ Nat.toDigits 10 n ++ List.replicate k '0', c.isDigit := by
  intro c member
  rcases List.mem_append.mp member with left | right
  · exact isDigit_toDigits n c left
  · exact isDigit_zeros k c right

/-- With zeros in front for `k` places and one more digit, a zero leads only if it stands alone. -/
theorem leading_padded {n : ℕ} (nonzero : n ≠ 0) (k : ℕ) {padded : List Char}
    (same : padded = List.replicate (k + 1 - (Nat.toDigits 10 n).length) '0' ++ Nat.toDigits 10 n) :
    padded.take (padded.length - k) = ['0'] ∨
      ∃ c others, padded.take (padded.length - k) = c :: others ∧ c ≠ '0' := by
  have length : padded.length = k + 1 - (Nat.toDigits 10 n).length + (Nat.toDigits 10 n).length := by
    rw [same, List.length_append, List.length_replicate]
  by_cases short : (Nat.toDigits 10 n).length < k + 1
  · left
    obtain ⟨j, zeros⟩ : ∃ j, k + 1 - (Nat.toDigits 10 n).length = j + 1 :=
      ⟨k - (Nat.toDigits 10 n).length, by omega⟩
    rw [show padded.length - k = 1 by omega, same, zeros, List.replicate_succ, List.cons_append,
      List.take_succ_cons, List.take_zero]
  · right
    obtain ⟨c, rest, digits, first⟩ := head_toDigits nonzero
    obtain ⟨j, front⟩ : ∃ j, padded.length - k = j + 1 := ⟨padded.length - k - 1, by omega⟩
    have none : k + 1 - (Nat.toDigits 10 n).length = 0 := by omega
    refine ⟨c, rest.take j, ?_, first⟩
    rw [front, same, none, List.replicate_zero, List.nil_append, digits, List.take_succ_cons]

section Layouts

variable {d : Decimal} (nonzero : d.digits ≠ 0)

include nonzero

/-- Digits with zeros behind them and nothing behind the point. -/
theorem form_of_natural (natural : 0 ≤ d.exponent) :
    ∃ f : Form, f.Valid ∧ (d.positional ++ ".0").toList = f.chars ∧ f.float = nearestFloat d.value := by
  obtain ⟨n, e⟩ := d
  obtain ⟨k, rfl⟩ : ∃ k : ℕ, e = k := ⟨e.toNat, by simp only at natural; omega⟩
  obtain ⟨c, rest, digits, first⟩ := head_toDigits nonzero
  let f : Form := ⟨Nat.toDigits 10 n ++ List.replicate k '0', ['0'], none⟩
  have value : Nat.ofDigitChars 10 (f.whole ++ f.fraction) 0 = n * 10 ^ k * 10 := by
    rw [Nat.ofDigitChars_append, ofDigitChars_scaled, Nat.ofDigitChars_cons, Nat.ofDigitChars_nil]
    simp only [Char.reduceToNat, Nat.sub_self, Nat.add_zero]
    ring
  refine ⟨f, ⟨isDigit_scaled n k, ?_, ?_, nofun, .inl (List.cons_ne_nil _ _)⟩, ?_, ?_⟩
  · exact .inr ⟨c, rest ++ List.replicate k '0', by rw [← List.cons_append, ← digits], first⟩
  · intro d member
    rw [List.mem_singleton.mp member]
    rfl
  · simp [f, Form.chars, Form.fractionChars, Form.exponentChars, Decimal.positional]
  · rw [f.float_eq_nearest (by rw [value]; positivity), value]
    congr 1
    show ((n * 10 ^ k * 10 : ℕ) : ℚ) * 10 ^ ((0 : ℤ) - (1 : ℕ)) = n * 10 ^ (k : ℤ)
    rw [zpow_natCast, Nat.cast_one, zero_sub, zpow_neg_one]
    push_cast
    field_simp

/-- Digits with a point among them, or zeros, a point and zeros in front of them. -/
theorem form_of_fraction (negative : d.exponent < 0) :
    ∃ f : Form, f.Valid ∧ f.exponent = none ∧ d.positional.toList = f.chars ∧
      f.float = nearestFloat d.value := by
  obtain ⟨n, e⟩ := d
  obtain ⟨k, rfl⟩ : ∃ k : ℕ, e = -k := ⟨(-e).toNat, by simp only at negative; omega⟩
  have some : k ≠ 0 := by
    rintro rfl
    exact absurd negative (by simp)
  let padded := List.replicate (k + 1 - (Nat.toDigits 10 n).length) '0' ++ Nat.toDigits 10 n
  have long : k + 1 ≤ padded.length := by
    simp only [padded, List.length_append, List.length_replicate]
    omega
  have all : ∀ d ∈ padded, d.isDigit := isDigit_padded _ n
  let f : Form := ⟨padded.take (padded.length - k), padded.drop (padded.length - k), none⟩
  have length : f.fraction.length = k := by
    simp only [f, List.length_drop]
    omega
  have value : Nat.ofDigitChars 10 (f.whole ++ f.fraction) 0 = n := by
    simp only [f, List.take_append_drop]
    exact ofDigitChars_padded _ n
  have behind : f.fraction ≠ [] := by
    intro none
    rw [none] at length
    exact some length.symm
  refine ⟨f, ⟨?_, leading_padded nonzero k rfl, ?_, nofun, .inl behind⟩, rfl, ?_, ?_⟩
  · exact fun d member => all d (List.mem_of_mem_take member)
  · exact fun d member => all d (List.mem_of_mem_drop member)
  · have places : (-(-(k : ℤ))).toNat = k := by omega
    have point : f.fraction.isEmpty = false := List.isEmpty_eq_false_iff.mpr behind
    unfold Decimal.positional
    simp only
    rw [if_neg (by simp only at negative; omega), places, Form.chars, Form.fractionChars, point]
    simp [Form.exponentChars, Decimal.pointed, f, padded]
  · rw [f.float_eq_nearest (by rw [value]; exact nonzero), value, length]
    congr 1
    show (n : ℚ) * 10 ^ ((0 : ℤ) - k) = n * 10 ^ (-k : ℤ)
    rw [zero_sub]

/-- One digit, the others behind a point, and the exponent. -/
theorem form_of_scientific :
    ∃ f : Form, f.Valid ∧ d.scientific.toList = f.chars ∧ f.float = nearestFloat d.value := by
  obtain ⟨n, e⟩ := d
  obtain ⟨c, rest, digits, first⟩ := head_toDigits nonzero
  have digits : Nat.toDigits 10 n = c :: rest := digits
  let exponent : ℤ := e + rest.length
  let size := List.replicate (2 - (Nat.toDigits 10 exponent.natAbs).length) '0' ++
    Nat.toDigits 10 exponent.natAbs
  let f : Form := ⟨[c], rest, some (decide (exponent < 0), size)⟩
  have all : ∀ d ∈ c :: rest, d.isDigit := digits ▸ isDigit_toDigits n
  have value : Nat.ofDigitChars 10 (f.whole ++ f.fraction) 0 = n := by
    show Nat.ofDigitChars 10 (c :: rest) 0 = n
    rw [← digits, Nat.ofDigitChars_ten_toDigits]
  have power : f.power = exponent := by
    show integer (decide (exponent < 0)) (size.map digit) = exponent
    unfold integer
    rw [Form.ofDigits_map, ofDigitChars_padded]
    split
    · rename_i negative
      have := of_decide_eq_true negative
      omega
    · rename_i natural
      have := mt decide_eq_true natural
      omega
  refine ⟨f, ⟨?_, .inr ⟨c, [], rfl, first⟩, ?_, ?_, .inr nofun⟩, ?_, ?_⟩
  · intro d member
    exact all d (List.mem_singleton.mp member ▸ List.mem_cons_self)
  · exact fun d member => all d (List.mem_cons_of_mem c member)
  · rintro negative ds same
    cases same
    exact ⟨List.append_ne_nil_of_right_ne_nil _ Nat.toDigits_ne_nil, isDigit_padded _ _⟩
  · unfold Decimal.scientific
    simp only [digits]
    cases rest with
    | nil => simp [f, Form.chars, Form.fractionChars, Form.exponentChars, size, exponent]
    | cons c' rest => simp [f, Form.chars, Form.fractionChars, Form.exponentChars, size, exponent]
  · rw [f.float_eq_nearest (by rw [value]; exact nonzero), value, power]
    congr 1
    show (n : ℚ) * 10 ^ (e + rest.length - rest.length : ℤ) = n * 10 ^ e
    rw [add_sub_cancel_right]

/-- The literal layout of a decimal is a form of it. -/
theorem form_of_decimal :
    ∃ f : Form, f.Valid ∧ d.literal.toList = f.chars ∧ f.float = nearestFloat d.value := by
  unfold Decimal.literal
  split
  · split
    · rename_i natural
      exact form_of_natural nonzero natural
    · rename_i negative
      obtain ⟨f, valid, -, text, value⟩ := form_of_fraction nonzero (not_le.mp negative)
      exact ⟨f, valid, text, value⟩
  · exact form_of_scientific nonzero

/-- Positional notation is a form without exponent, with digits in front of its point and behind it. -/
theorem form_of_positional :
    ∃ f : Form, f.Plain ∧ d.positional.toList = f.chars ∧ f.float = nearestFloat d.value := by
  by_cases natural : 0 ≤ d.exponent
  · obtain ⟨n, e⟩ := d
    obtain ⟨k, rfl⟩ : ∃ k : ℕ, e = k := ⟨e.toNat, by simp only at natural; omega⟩
    let f : Form := ⟨Nat.toDigits 10 n ++ List.replicate k '0', [], none⟩
    have value : Nat.ofDigitChars 10 (f.whole ++ f.fraction) 0 = n * 10 ^ k := by
      rw [List.append_nil, ofDigitChars_scaled]
    have some : n ≠ 0 := nonzero
    refine ⟨f, ⟨?_, isDigit_scaled n k, by simp [f], rfl⟩, ?_, ?_⟩
    · exact List.append_ne_nil_of_left_ne_nil Nat.toDigits_ne_nil _
    · simp [f, Form.chars, Form.fractionChars, Form.exponentChars, Decimal.positional]
    · rw [f.float_eq_nearest (by rw [value]; positivity), value]
      congr 1
      show ((n * 10 ^ k : ℕ) : ℚ) * 10 ^ ((0 : ℤ) - (0 : ℕ)) = n * 10 ^ (k : ℤ)
      rw [zpow_natCast]
      push_cast
      simp
  · obtain ⟨f, valid, unscaled, text, value⟩ := form_of_fraction nonzero (not_le.mp natural)
    refine ⟨f, ⟨?_, valid.whole, valid.fraction, unscaled⟩, text, value⟩
    rcases valid.leading with zero | ⟨c, rest, same, -⟩
    · simp [zero]
    · simp [same]

end Layouts

theorem toList_signed (x : Float) (text : String) :
    (Number.signed x text).toList = (if floatSign x then ['-'] else []) ++ text.toList := by
  unfold Number.signed
  split <;> simp

/-- The literal text of a finite number is a form of its magnitude, behind its sign. -/
theorem form_of_literal {x : Float} (number : x.isNaN = false) (bounded : x.isInf = false) :
    ∃ f : Form, f.Valid ∧ f.float = x.abs ∧
      (Number.literal x).toList = (if floatSign x then ['-'] else []) ++ f.chars := by
  unfold Number.literal
  rw [number, bounded]
  simp only [Bool.false_eq_true, ↓reduceIte]
  have number : (parts x).isNaN = false := number
  have bounded : (parts x).isInf = false := bounded
  cases same : parts x with
  | infinity s => rw [same] at bounded; cases bounded
  | notANumber => rw [same] at number; cases number
  | zero s =>
      have none : (floatRatio x).1 = 0 := by
        rw [floatRatio, floatParts_of_zero same]
        rfl
      rw [if_pos none, toList_signed]
      refine ⟨⟨['0'], ['0'], Option.none⟩, ⟨by simp, .inl rfl, by simp, nofun, .inl nofun⟩, ?_, rfl⟩
      apply parts_injective
      rw [parts_abs, same]
      rfl
  | finite s m e positive =>
      have some : (floatRatio x).1 ≠ 0 := by
        rw [floatRatio, floatParts_of_finite same]
        simp only
        split
        · exact Nat.mul_ne_zero positive.ne' (by rw [Nat.pow_eq]; positivity)
        · exact positive.ne'
      obtain ⟨nonzero, reads⟩ := toFloat_shortest same
      obtain ⟨f, valid, text, value⟩ := form_of_decimal nonzero
      rw [if_neg some, toList_signed, text]
      exact ⟨f, valid, by rw [value, ← Decimal.toFloat_eq nonzero, reads], rfl⟩

/-- A float without fraction has the value of its whole part. -/
theorem wholePart_eq {x : Float} {s : Sign} {m : ℕ} {e : ℤ} {positive : 0 < m}
    (finite : parts x = .finite s m e positive) (whole : Number.isWhole x) :
    (Number.wholePart x : ℚ) = m * 2 ^ e := by
  unfold Number.isWhole at whole
  unfold Number.wholePart
  rw [floatRatio, floatParts_of_finite finite] at whole ⊢
  simp only at whole ⊢
  split at whole
  · rename_i natural
    obtain ⟨k, rfl⟩ : ∃ k : ℕ, e = k := ⟨e.toNat, by omega⟩
    simp
  · rename_i negative
    obtain ⟨k, rfl⟩ : ∃ k : ℕ, e = -k := ⟨(-e).toNat, by omega⟩
    simp only [neg_neg, Int.toNat_natCast, Nat.pow_eq, beq_iff_eq] at whole ⊢
    rw [if_neg (by omega)]
    simp only
    rw [Nat.cast_div (Nat.dvd_of_mod_eq_zero whole) (by positivity), zpow_neg, zpow_natCast]
    push_cast
    rw [div_eq_mul_inv]

/-- **The plain text of a finite number is a form without exponent** of its magnitude, behind its sign. -/
theorem form_of_plain {x : Float} (number : x.isNaN = false) (bounded : x.isInf = false) :
    ∃ f : Form, f.Plain ∧ f.float = x.abs ∧
      (Number.plain x).toList = (if floatSign x then ['-'] else []) ++ f.chars := by
  unfold Number.plain
  rw [number, bounded]
  simp only [Bool.false_eq_true, ↓reduceIte]
  have number : (parts x).isNaN = false := number
  have bounded : (parts x).isInf = false := bounded
  cases same : parts x with
  | infinity s => rw [same] at bounded; cases bounded
  | notANumber => rw [same] at number; cases number
  | zero s =>
      obtain ⟨den, ratio⟩ : ∃ den, floatRatio x = (0, den) := by
        rw [floatRatio, floatParts_of_zero same]
        exact ⟨_, rfl⟩
      have whole : Number.isWhole x ∧ Number.wholePart x = 0 := by
        simp [Number.isWhole, Number.wholePart, ratio]
      rw [if_pos whole.1, toList_signed, whole.2]
      refine ⟨⟨['0'], [], none⟩, ⟨List.cons_ne_nil _ _, by simp, by simp, rfl⟩, ?_, rfl⟩
      apply parts_injective
      rw [parts_abs, same]
      rfl
  | finite s m e positive =>
      split
      · rename_i whole
        have value := wholePart_eq same whole
        have nonzero : Number.wholePart x ≠ 0 := by
          intro zero
          rw [zero, Nat.cast_zero] at value
          exact absurd value.symm (by positivity)
        obtain ⟨f, plain, text, reads⟩ := form_of_positional (d := ⟨Number.wholePart x, 0⟩) nonzero
        refine ⟨f, plain, ?_, ?_⟩
        · rw [reads, Decimal.value, zpow_zero, mul_one, value, nearestFloat_abs same]
        · rw [toList_signed, ← text]
          simp [Decimal.positional]
      · obtain ⟨nonzero, reads⟩ := toFloat_shortest same
        obtain ⟨f, plain, text, value⟩ := form_of_positional nonzero
        rw [toList_signed, text]
        exact ⟨f, plain, by rw [value, ← Decimal.toFloat_eq nonzero, reads], rfl⟩

end Numeral

/-- A number is its magnitude with its sign. -/
theorem Rounding.signed_abs {x : Float} (number : x.isNaN = false) :
    (if floatSign x then -x.abs else x.abs) = x := by
  have number : parts x ≠ .notANumber := by
    intro same
    have number : (parts x).isNaN = false := number
    rw [same] at number
    cases number
  apply parts_injective
  rw [floatSign_eq number, apply_ite parts, parts_neg, parts_abs]
  exact signed_magnitude number

end LoxLang
