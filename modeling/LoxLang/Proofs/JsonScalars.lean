/-
# LoxLang.Proofs.JsonScalars -- strings and numbers come back from JSON text

A written string is read character by character: an escape stands for one character and
takes one step.  A written number is read as far as its digits, its fraction and its
exponent go, so what stands behind it must not go on with any of them (`Ends`).  The float
that is read is the one that the literal text of a number stands for.
-/
import LoxLang.Json.Reader
import LoxLang.Json.Writer
import LoxLang.Proofs.NumberText

namespace LoxLang.Json

set_option autoImplicit false

/-- An integer of no more digits than are read. -/
def Short (n : Int) : Prop := (Nat.toDigits 10 n.natAbs).length ≤ Numeral.maxDigits

namespace Reader

/-! ## Strings -/

/-- The four digits of a control character. -/
theorem unit?_hexCode {n : Nat} (control : n < 0x20) (next : Char) (rest : List Char) :
    unit? ((Text.hexCode 4 n).toList ++ next :: rest) = some (n, next :: rest) := by
  interval_cases n <;> rfl

section Characters

variable (opening : List Char) (fuel : Nat) (done : Text) (next : Char) (rest : List Char)

/-- An escape is read in one step, whatever stands behind it. -/
theorem stringBody_escaped {letter point : Char} (other : letter ≠ 'u')
    (stands : escaped? letter = some point) :
    stringBody opening (fuel + 1) done ('\\' :: letter :: next :: rest) =
      stringBody opening fuel (.char point :: done) (next :: rest) := by
  rw [stringBody, if_neg (by decide), if_pos rfl, escape, stands]
  exact fun is => other is

/-- A control character is read from its code. -/
theorem stringBody_control {c : Char} (control : c.toNat < 0x20) :
    stringBody opening (fuel + 1) done (("\\u" ++ Text.hexCode 4 c.toNat).toList ++ next :: rest) =
      stringBody opening fuel (.char c :: done) (next :: rest) := by
  have text : ("\\u" ++ Text.hexCode 4 c.toNat).toList ++ next :: rest =
      '\\' :: 'u' :: ((Text.hexCode 4 c.toNat).toList ++ next :: rest) := by
    simp
  have low : isHighSurrogate c.toNat = false := by
    simp [isHighSurrogate]
    omega
  have point : CodePoint.ofUnit c.toNat = .char c := by
    rw [CodePoint.ofUnit, dif_neg (by omega), Char.ofNat_toNat]
  rw [text, stringBody, if_neg (by decide), if_pos rfl, escape, unicodeEscape, unit?_hexCode control]
  simp only [low, point]

/-- A written character is read as the character. -/
theorem stringBody_writeChar (c : Char) :
    stringBody opening (fuel + 1) done ((writeChar c).toList ++ next :: rest) =
      stringBody opening fuel (.char c :: done) (next :: rest) := by
  unfold writeChar
  split
  · subst c
    exact stringBody_escaped opening fuel done next rest (by decide) rfl
  split
  · subst c
    exact stringBody_escaped opening fuel done next rest (by decide) rfl
  split
  · subst c
    exact stringBody_escaped opening fuel done next rest (by decide) rfl
  split
  · subst c
    exact stringBody_escaped opening fuel done next rest (by decide) rfl
  split
  · subst c
    exact stringBody_escaped opening fuel done next rest (by decide) rfl
  split
  · subst c
    exact stringBody_escaped opening fuel done next rest (by decide) rfl
  split
  · subst c
    exact stringBody_escaped opening fuel done next rest (by decide) rfl
  rename_i quote backslash _ _ _ _ _
  split
  · rename_i control
    exact stringBody_control opening fuel done next rest control
  · rename_i plain
    rw [String.toList_singleton, List.singleton_append, stringBody, if_neg quote, if_neg backslash,
      if_neg (by omega)]

end Characters

/-- The body of a written string is read up to its closing quote. -/
theorem stringBody_written (opening cs rest : List Char) (fuel : Nat) (done : Text)
    (enough : cs.length < fuel) :
    stringBody opening fuel done (cs.flatMap (fun c => (writeChar c).toList) ++ '"' :: rest) =
      .ok (done.reverse ++ Text.ofChars cs, rest) := by
  induction cs generalizing fuel done with
  | nil =>
      obtain ⟨fuel, rfl⟩ := Nat.exists_eq_add_one.mpr enough
      rw [List.flatMap_nil, List.nil_append, stringBody, if_pos rfl]
      simp [Text.ofChars]
  | cons c cs ih =>
      obtain ⟨fuel, rfl⟩ : ∃ n, fuel = n + 1 := ⟨fuel - 1, by simp at enough; omega⟩
      obtain ⟨next, behind, same⟩ : ∃ next behind,
          cs.flatMap (fun c => (writeChar c).toList) ++ '"' :: rest = next :: behind :=
        List.exists_cons_of_ne_nil (List.append_ne_nil_of_right_ne_nil _ (List.cons_ne_nil _ _))
      rw [List.flatMap_cons, List.append_assoc, same, stringBody_writeChar, ← same,
        ih fuel _ (by simpa using enough)]
      simp [Text.ofChars]

/-! ## Numbers -/

/-- A rest that does not go on with a number. -/
def Ends (rest : List Char) : Prop :=
  ∀ c ∈ rest.head?, c.isDigit = false ∧ c ≠ '.' ∧ c ≠ 'e' ∧ c ≠ 'E'

theorem isDigit_eq : isDigit = Char.isDigit := rfl

section Digits

variable {ds rest : List Char} (all : ∀ c ∈ ds, c.isDigit)
  (stops : ∀ c ∈ rest.head?, c.isDigit = false)

include all stops

/-- Digits are taken as far as they go. -/
theorem takeWhile_digits : (ds ++ rest).takeWhile isDigit = ds := by
  rw [isDigit_eq, List.takeWhile_append_of_pos all]
  cases rest with
  | nil => simp
  | cons c cs => rw [List.takeWhile_cons_of_neg (by simp [stops c rfl]), List.append_nil]

theorem dropWhile_digits : (ds ++ rest).dropWhile isDigit = rest := by
  rw [isDigit_eq, List.dropWhile_append_of_pos all]
  cases rest with
  | nil => simp
  | cons c cs => rw [List.dropWhile_cons_of_neg (by simp [stops c rfl])]

theorem wholeDigits_append (leading : ds = ['0'] ∨ ∃ c others, ds = c :: others ∧ c ≠ '0') :
    wholeDigits (ds ++ rest) = (ds, rest) := by
  rcases leading with zero | ⟨c, others, same, first⟩
  · rw [zero]
    rfl
  · have taken := takeWhile_digits all stops
    have left := dropWhile_digits all stops
    rw [same, List.cons_append] at taken left
    rw [same, List.cons_append, wholeDigits, taken, left]
    exact fun _ is => first (List.cons.inj is).1

end Digits

theorem fractionDigits_of_ends {rest : List Char} (ends : ∀ c ∈ rest.head?, c ≠ '.') :
    fractionDigits rest = ([], rest) := by
  rw [fractionDigits]
  rintro behind rfl
  exact ends '.' rfl rfl

theorem exponent?_of_ends {rest : List Char} (ends : Ends rest) : exponent? rest = none := by
  cases rest with
  | nil => rfl
  | cons c cs =>
      obtain ⟨-, -, small, large⟩ := ends c rfl
      rw [exponent?, if_neg (by simp [small, large])]

/-- A sign in front of a digit is told from the digit. -/
theorem unsigned_digits (negative : Bool) {c : Char} (digit : c.isDigit) (cs : List Char) :
    (((if negative then ['-'] else []) ++ c :: cs).head? = some '-' ↔ negative) ∧
      (if negative then ((if negative then ['-'] else []) ++ c :: cs).drop 1
        else (if negative then ['-'] else []) ++ c :: cs) = c :: cs := by
  have other : c ≠ '-' := by
    rintro rfl
    exact absurd digit (by decide)
  cases negative <;> simp [other]

section Form

variable {f : Numeral.Form} (valid : f.Valid) {rest : List Char}

include valid

theorem fractionDigits_form (stops : ∀ c ∈ rest.head?, c.isDigit = false ∧ c ≠ '.') :
    fractionDigits (f.fractionChars ++ rest) = (f.fraction, rest) := by
  have all := valid.fraction
  unfold Numeral.Form.fractionChars
  cases same : f.fraction with
  | nil => exact fractionDigits_of_ends fun c member => (stops c member).2
  | cons d ds =>
      have digits := fun c member => (stops c member).1
      rw [same] at all
      rw [if_neg (by simp), List.cons_append, fractionDigits, takeWhile_digits all digits,
        dropWhile_digits all digits]
      rfl

theorem exponent?_form (ends : Ends rest) :
    exponent? (f.exponentChars ++ rest) = f.exponent.map fun _ => (f.power, rest) := by
  unfold Numeral.Form.exponentChars Numeral.Form.power
  cases same : f.exponent with
  | none => exact exponent?_of_ends ends
  | some parts =>
      obtain ⟨negative, digits⟩ := parts
      obtain ⟨some, all⟩ := valid.exponent negative digits same
      have stops := fun c member => (ends c member).1
      have signs : Numeral.sign ((if negative then '-' else '+') :: (digits ++ rest)) =
          (negative, digits ++ rest) := by
        cases negative <;> rfl
      show exponent? ('e' :: (if negative then '-' else '+') :: (digits ++ rest)) = _
      rw [exponent?, if_pos (by simp), signs]
      simp only
      rw [takeWhile_digits all stops, dropWhile_digits all stops, if_neg (by simpa using some)]
      rfl

omit valid in
/-- What stands behind the digits of a form. -/
theorem head_exponentChars (ends : Ends rest) :
    ∀ c ∈ (f.exponentChars ++ rest).head?, c.isDigit = false ∧ c ≠ '.' := by
  unfold Numeral.Form.exponentChars
  split
  · exact fun c member => ⟨(ends c member).1, (ends c member).2.1⟩
  · intro c member
    cases member
    decide

omit valid in
theorem head_fractionChars (ends : Ends rest) :
    ∀ c ∈ (f.fractionChars ++ (f.exponentChars ++ rest)).head?, c.isDigit = false := by
  unfold Numeral.Form.fractionChars
  split
  · exact fun c member => (head_exponentChars ends c member).1
  · intro c member
    cases member
    decide

theorem head_form : ∃ c others, f.whole = c :: others ∧ c.isDigit := by
  have all := valid.whole
  rcases valid.leading with zero | ⟨c, others, same, -⟩
  · exact ⟨'0', [], zero, rfl⟩
  · rw [same] at all
    exact ⟨c, others, same, all c List.mem_cons_self⟩

theorem head_chars : ∃ c others, f.chars = c :: others ∧ c.isDigit := by
  obtain ⟨c, others, first, digit⟩ := head_form valid
  exact ⟨c, others ++ f.fractionChars ++ f.exponentChars, by rw [Numeral.Form.chars, first]; rfl, digit⟩

/-- A form behind a sign is read as its float. -/
theorem number_form (negative : Bool) (ends : Ends rest) :
    number ((if negative then ['-'] else []) ++ (f.chars ++ rest)) =
      .ok (.real (if negative then -f.float else f.float), rest) := by
  obtain ⟨c, others, first, digit⟩ := head_form valid
  have parts : f.chars ++ rest = f.whole ++ (f.fractionChars ++ (f.exponentChars ++ rest)) := by
    simp only [Numeral.Form.chars, List.append_assoc]
  have some : f.whole.isEmpty = false := by rw [first]; rfl
  have unsigned := unsigned_digits negative digit (others ++ (f.fractionChars ++ (f.exponentChars ++ rest)))
  rw [← List.cons_append, ← first, ← parts] at unsigned
  unfold number
  simp only [unsigned.1, unsigned.2]
  rw [parts, wholeDigits_append valid.whole (head_fractionChars ends) valid.leading]
  simp only [some]
  rw [fractionDigits_form valid (head_exponentChars ends)]
  simp only
  rw [exponent?_form valid ends, Numeral.Form.float]
  cases exponent : f.exponent with
  | none =>
      have fraction : f.fraction ≠ [] := valid.real.resolve_right fun present => present exponent
      have power : f.power = 0 := by rw [Numeral.Form.power, exponent]
      simp [fraction, power, Numeral.Form.exponentChars, exponent]
  | some parts => simp

end Form

theorem toList_toString (n : Int) :
    (toString n).toList = (if n < 0 then ['-'] else []) ++ Nat.toDigits 10 n.natAbs := by
  rw [Int.toString_eq_repr, Int.repr_eq_if]
  by_cases negative : n < 0
  · rw [if_neg (by omega), if_pos negative, String.toList_append, Nat.toList_repr,
      show (-n).toNat = n.natAbs by omega]
    rfl
  · rw [if_pos (by omega), if_neg negative, Nat.toList_repr, show n.toNat = n.natAbs by omega]
    rfl

/-- Digits behind a sign are read as an integer. -/
theorem number_integer {n : Int} (short : Short n) {rest : List Char} (ends : Ends rest) :
    number ((toString n).toList ++ rest) = .ok (.integer n, rest) := by
  have all := Numeral.isDigit_toDigits n.natAbs
  have leading : Nat.toDigits 10 n.natAbs = ['0'] ∨
      ∃ c others, Nat.toDigits 10 n.natAbs = c :: others ∧ c ≠ '0' := by
    by_cases zero : n.natAbs = 0
    · rw [zero]
      exact .inl rfl
    · exact .inr (Numeral.head_toDigits zero)
  obtain ⟨c, others, first⟩ := List.exists_cons_of_ne_nil (Nat.toDigits_ne_nil (b := 10) (n := n.natAbs))
  have digit : c.isDigit := all c (first ▸ List.mem_cons_self)
  have unsigned := unsigned_digits (decide (n < 0)) digit (others ++ rest)
  rw [← List.cons_append, ← first] at unsigned
  simp only [decide_eq_true_eq] at unsigned
  have some : (Nat.toDigits 10 n.natAbs).isEmpty = false := by rw [first]; rfl
  have value : Numeral.integer (decide (n < 0)) ((Nat.toDigits 10 n.natAbs).map Numeral.digit) = n := by
    rw [Numeral.integer, Numeral.Form.ofDigits_map, Nat.ofDigitChars_ten_toDigits]
    simp only [decide_eq_true_eq]
    omega
  unfold number
  rw [toList_toString, List.append_assoc]
  simp only [unsigned.1, unsigned.2]
  rw [wholeDigits_append all (fun c member => (ends c member).1) leading]
  simp only [some]
  rw [fractionDigits_of_ends fun c member => (ends c member).2.1]
  simp only
  rw [exponent?_of_ends ends]
  simp [value, Nat.not_lt.mpr (show _ ≤ Numeral.maxDigits from short)]

/-! ## Words and numbers -/

/-- A written number: a sign if it is negative, and a digit in front of the others. -/
theorem scalar_of_digit (negative : Bool) {c : Char} (digit : c.isDigit) (cs : List Char) :
    scalar ((if negative then ['-'] else []) ++ c :: cs) =
      number ((if negative then ['-'] else []) ++ c :: cs) := by
  have other : ∀ d : Char, d.isDigit = false → (d == c) = false := by
    intro d letter
    rw [beq_eq_false_iff_ne]
    rintro rfl
    rw [letter] at digit
    cases digit
  have none : (words.find? fun word => word.1.isPrefixOf ((if negative then ['-'] else []) ++ c :: cs)) =
      none := by
    cases negative with
    | true => simp [words, List.find?, List.isPrefixOf, other]
    | false => simp [words, List.find?, List.isPrefixOf, other]
  rw [scalar, none]

theorem value_of_scalar (fuel limit : Nat) {c : Char} (quote : c ≠ '"') (bracket : c ≠ '[')
    (brace : c ≠ '\x7b') (cs : List Char) : value fuel limit (c :: cs) = scalar (c :: cs) := by
  cases limit with
  | zero => unfold value; split <;> simp_all
  | succ limit => unfold value; split <;> simp_all

theorem value_of_digit (fuel limit : Nat) (negative : Bool) {c : Char} (digit : c.isDigit)
    (cs : List Char) :
    value fuel limit ((if negative then ['-'] else []) ++ c :: cs) =
      number ((if negative then ['-'] else []) ++ c :: cs) := by
  rw [← scalar_of_digit negative digit cs]
  cases negative with
  | true => exact value_of_scalar fuel limit (by decide) (by decide) (by decide) (c :: cs)
  | false =>
      refine value_of_scalar fuel limit ?_ ?_ ?_ cs <;>
        (rintro rfl; exact absurd digit (by decide))

end Reader

end LoxLang.Json
