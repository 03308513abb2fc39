/-
# LoxLang.Proofs.Lexemes -- scanning is lossless and takes the longest lexeme

The lexemes of the language fall into classes: marks of one or two characters, comments,
strings between quotes, numbers, keywords and names.  `Belongs` says of a text which class
it is in, with the kind of token and the literal that the class gives it; a text is in one
class at most (`belongs_unique`).  The marks and the keywords are those of two tables, which
the scanner does not use but agrees with.

A text is cut where it has to be.  Each token or comment takes the longest lexeme at the
head of what is left, a blank and a character that starts no lexeme are segments of their
own, and a string that never closes takes all that is left.  These conditions allow one
way to cut a text, and scanning finds it (`scan_is_maximal_munch`).
-/
import LoxLang.Proofs.FrontEndAgreement

namespace LoxLang

set_option autoImplicit false

open Lexeme

/-! ## The value of a number -/

namespace Numeral

theorem digitValue?_of_isDigit {c : Char} (digit : isDigit c) :
    Text.digitValue? c = some (Numeral.digit c) := by
  rw [Stream.isDigit_iff] at digit
  obtain ⟨others, zeros⟩ : ∃ others, Text.zeros = 0x30 :: others := ⟨_, rfl⟩
  unfold Text.digitValue?
  rw [zeros, List.find?_cons_of_pos]
  · rfl
  · simp only [Bool.and_eq_true, decide_eq_true_eq]
    omega

theorem toLower_of_isDigit {c : Char} (digit : isDigit c) : c.toLower = c := by
  rw [Stream.isDigit_iff] at digit
  unfold Char.toLower
  split
  · rename_i upper
    have : 65 ≤ c.toNat := by simpa [UInt32.le_iff_toNat_le] using upper.1
    omega
  · rfl

theorem isSpace_of_isDigit {c : Char} (digit : isDigit c) : Text.isSpace c = false := by
  rw [Stream.isDigit_iff] at digit
  have : Text.isBlank c = false := by
    simp [Text.isBlank, Text.blanks, Text.Ranges.contains]
    omega
  simp [Text.isSpace, this]

/-- A row of digits is read up to a character that does not go on with it. -/
theorem digits_append {ds : List Char} (rest : List Char) (all : ∀ d ∈ ds, isDigit d)
    (stops : ∀ c ∈ rest.head?, Text.digitValue? c = none ∧ c ≠ '_') :
    digits (ds ++ rest) = (ds.map digit, rest) := by
  induction ds with
  | nil =>
      cases rest with
      | nil => simp [digits]
      | cons c rest =>
          have none := (stops c rfl).1
          simp [digits, none]
  | cons d ds ih =>
      have value := digitValue?_of_isDigit (all d List.mem_cons_self)
      have more := ih fun d member => all d (List.mem_cons_of_mem _ member)
      rw [List.cons_append, digits, value]
      simp only
      split
      · rename_i empty
        rw [empty] at more
        simp [digits] at more
        simp_all
      · rename_i next tail same
        cases ds with
        | nil =>
          simp only [List.nil_append] at same
          have := (stops '_' (by rw [same]; rfl)).2
          exact absurd rfl this
        | cons d' ds =>
          simp only [List.cons_append, List.cons.injEq] at same
          have := all d' (by simp)
          rw [same.1] at this
          exact absurd this (by decide)
      · rw [more]
        rfl

theorem trimEnds_eq_self (p : Char → Bool) {cs : List Char} (none : ∀ c ∈ cs, p c = false) :
    Text.trimEnds p cs = cs := by
  have keep {ds : List Char} (none : ∀ c ∈ ds, p c = false) : ds.dropWhile p = ds := by
    cases ds with
    | nil => rfl
    | cons d ds => simp [none d List.mem_cons_self]
  unfold Text.trimEnds
  rw [keep none, keep fun c member => none c (List.mem_reverse.mp member), List.reverse_reverse]

theorem sign_of_digit {c : Char} (digit : isDigit c) (cs : List Char) : sign (c :: cs) = (false, c :: cs) := by
  unfold sign
  split
  · rename_i same
    rw [(List.cons.inj same).1] at digit
    exact absurd digit (by decide)
  · rename_i same
    rw [(List.cons.inj same).1] at digit
    exact absurd digit (by decide)
  · rfl

/-- A text that starts with a digit is no word for an infinite or undefined number. -/
theorem unsigned?_of_digit {c : Char} (digit : isDigit c) (cs : List Char) :
    unsigned? (c :: cs) = magnitude? (c :: cs) := by
  have noWord (d : Char) (word : List Char) (other : isDigit d = false) :
      String.ofList ((c :: cs).map Char.toLower) ≠ String.ofList (d :: word) := by
    intro same
    have heads := congrArg String.toList same
    simp only [String.toList_ofList, List.map_cons, List.cons.injEq, toLower_of_isDigit digit] at heads
    rw [heads.1, other] at digit
    cases digit
  have inf := noWord 'i' ['n', 'f'] (by decide)
  have infinity := noWord 'i' ['n', 'f', 'i', 'n', 'i', 't', 'y'] (by decide)
  have nan := noWord 'n' ['a', 'n'] (by decide)
  unfold unsigned?
  simp only [Bool.or_eq_true, decide_eq_true_eq]
  rw [if_neg (not_or.mpr ⟨inf, infinity⟩), if_neg nan]

section NumberText

variable {whole fraction : List Char} (digits : ∀ d ∈ whole, isDigit d)
  (digits' : ∀ d ∈ fraction, isDigit d)

include digits digits'

theorem isSpace_numberText : ∀ d ∈ numberText whole fraction, Text.isSpace d = false := by
  intro d member
  unfold numberText at member
  split at member
  · exact isSpace_of_isDigit (digits d member)
  · rcases List.mem_append.mp member with front | behind
    · exact isSpace_of_isDigit (digits d front)
    · rcases List.mem_cons.mp behind with rfl | behind
      · decide
      · exact isSpace_of_isDigit (digits' d behind)

theorem magnitude?_numberText (nonempty : whole ≠ []) :
    magnitude? (numberText whole fraction) = some (numberValue whole fraction) := by
  unfold magnitude? numberValue
  by_cases none : fraction = []
  · have read := digits_append [] digits nofun
    rw [List.append_nil] at read
    simp [numberText, none, read, exponent?, nonempty]
  · have read := digits_append ('.' :: fraction) digits (by simp; decide)
    have read' := digits_append [] digits' nofun
    rw [List.append_nil] at read'
    simp [numberText, none, read, read', exponent?, nonempty]

/-- Digits with an optional point and digits behind it are read as the number they write. -/
theorem readFloat?_numberText (nonempty : whole ≠ []) :
    readFloat? (Text.ofChars (numberText whole fraction)) = some (numberValue whole fraction) := by
  have chars : (Text.ofChars (numberText whole fraction)).chars = numberText whole fraction := by
    simp [Text.ofChars, Text.chars, CodePoint.toChar, Function.comp_def]
  have shape : ∃ c cs, isDigit c ∧ numberText whole fraction = c :: cs := by
    obtain ⟨c, cs, rfl⟩ := List.exists_cons_of_ne_nil nonempty
    unfold numberText
    split <;> exact ⟨c, _, digits c List.mem_cons_self, rfl⟩
  have magnitude := magnitude?_numberText digits digits' nonempty
  unfold readFloat?
  rw [chars, trimEnds_eq_self _ (isSpace_numberText digits digits')]
  obtain ⟨c, cs, digit, same⟩ := shape
  rw [same] at magnitude ⊢
  simp [sign_of_digit digit, unsigned?_of_digit digit, magnitude]

end NumberText

end Numeral

/-! ## Classes of lexemes -/

namespace Lexeme

/-- A letter or underscore, then letters, underscores and digits. -/
def IsWord (text : List Char) : Prop :=
  ∃ c cs, text = c :: cs ∧ isNameStart c ∧ ∀ d ∈ cs, isNameChar d

/-- Digits, or digits on both sides of a point. -/
def IsNumber (text : List Char) : Prop :=
  ∃ whole fraction, whole ≠ [] ∧ (∀ d ∈ whole, isDigit d) ∧ (∀ d ∈ fraction, isDigit d) ∧
    text = numberText whole fraction

/-- The marks of the language, and their kinds. -/
def marks : List (List Char × TokenKind) :=
  [(['('], .leftParen), ([')'], .rightParen), (['\x7b'], .leftBrace), (['\x7d'], .rightBrace),
   ([','], .comma), (['.'], .dot), (['-'], .minus), (['+'], .plus), ([';'], .semicolon), (['/'], .slash),
   (['*'], .star), (['!'], .bang), (['!', '='], .bangEqual), (['='], .equal), (['=', '='], .equalEqual),
   (['>'], .greater), (['>', '='], .greaterEqual), (['<'], .less), (['<', '='], .lessEqual)]

/-- The words that are no names, and their kinds. -/
def keywords : List (String × TokenKind) :=
  [("and", .wordAnd), ("class", .wordClass), ("else", .wordElse), ("false", .wordFalse), ("for", .wordFor),
   ("fun", .wordFun), ("if", .wordIf), ("nil", .wordNil), ("or", .wordOr), ("print", .wordPrint),
   ("return", .wordReturn), ("super", .wordSuper), ("this", .wordThis), ("true", .wordTrue),
   ("var", .wordVar), ("while", .wordWhile)]

/-- A text is a lexeme, with the kind and the literal of its class. -/
inductive Belongs : List Char → SegmentKind → Prop where
  | mark {text : List Char} {kind : TokenKind} (listed : (text, kind) ∈ marks) :
      Belongs text (.token kind none)
  | comment {body : List Char} (line : '\n' ∉ body) : Belongs ('/' :: '/' :: body) .comment
  | string {body : List Char} (inside : '"' ∉ body) :
      Belongs ('"' :: (body ++ ['"'])) (.token .string (some (.text (Text.ofChars body))))
  | number {text : List Char} {x : Float} (shape : IsNumber text)
      (value : Numeral.readFloat? (Text.ofChars text) = some x) :
      Belongs text (.token .number (some (.number x)))
  | keyword {text : List Char} {kind : TokenKind} (shape : IsWord text)
      (listed : (String.ofList text, kind) ∈ keywords) : Belongs text (.token kind none)
  | name {text : List Char} (shape : IsWord text) (free : ∀ kind, (String.ofList text, kind) ∉ keywords) :
      Belongs text (.token .identifier (some (.text (Text.ofChars text))))

/-! ### The marks and keywords of the scanner -/

theorem mem_marks_of_single {c : Char} {kind : TokenKind} (found : single? c = some kind) :
    ([c], kind) ∈ marks := by
  unfold single? at found
  split at found <;> cases found <;> simp [marks]

theorem mem_marks_of_paired {c : Char} {doubled alone : TokenKind}
    (found : paired? c = some (doubled, alone)) : ([c, '='], doubled) ∈ marks ∧ ([c], alone) ∈ marks := by
  unfold paired? at found
  split at found <;> cases found <;> simp [marks]

/-- A mark is a character that is a token by itself, one with an equals sign behind it or without one,
or a slash. -/
theorem mark_cases {text : List Char} {kind : TokenKind} (listed : (text, kind) ∈ marks) :
    (∃ c, text = [c] ∧ single? c = some kind) ∨
      (∃ c alone, text = [c, '='] ∧ paired? c = some (kind, alone)) ∨
      (∃ c doubled, text = [c] ∧ paired? c = some (doubled, kind)) ∨ text = ['/'] ∧ kind = .slash := by
  simp only [marks, List.mem_cons, Prod.mk.injEq, List.not_mem_nil, or_false] at listed
  rcases listed with h | h | h | h | h | h | h | h | h | h | h | h | h | h | h | h | h | h | h <;>
    obtain ⟨rfl, rfl⟩ := h <;> simp [single?, paired?]

theorem mem_keywords_iff {s : String} {kind : TokenKind} :
    (s, kind) ∈ keywords ↔ TokenKind.keyword? s = some kind := by
  constructor
  · intro listed
    simp only [keywords, List.mem_cons, Prod.mk.injEq, List.not_mem_nil, or_false] at listed
    rcases listed with h | h | h | h | h | h | h | h | h | h | h | h | h | h | h | h <;>
      obtain ⟨rfl, rfl⟩ := h <;> rfl
  · intro found
    unfold TokenKind.keyword? at found
    split at found <;> cases found <;> simp [keywords]

theorem keyword?_eq_none_iff {s : String} :
    TokenKind.keyword? s = none ↔ ∀ kind, (s, kind) ∉ keywords := by
  simp [mem_keywords_iff, Option.eq_none_iff_forall_ne_some]

end Lexeme

namespace Segment

/-! ## The first segment by its first character -/

/-- The characters that start a mark, a comment, a blank or a string. -/
def specials : List Char :=
  ['(', ')', '\x7b', '\x7d', ',', '.', '-', '+', ';', '*', '!', '=', '<', '>', '/', ' ', '\r', '\t',
   '\n', '"']

theorem first_single {c : Char} {kind : TokenKind} (found : single? c = some kind) (cs : List Char) :
    first c cs = ⟨.token kind none, [c]⟩ := by
  simp [first, found]

theorem first_paired {c : Char} {doubled alone : TokenKind} (found : paired? c = some (doubled, alone))
    (cs : List Char) :
    first c cs =
      if cs.head? = some '=' then ⟨.token doubled none, [c, '=']⟩ else ⟨.token alone none, [c]⟩ := by
  have noSingle : single? c = none := by
    unfold paired? at found
    split at found <;> first | rfl | cases found
  simp [first, noSingle, found]

theorem first_slash (cs : List Char) :
    first '/' cs =
      if cs.head? = some '/' then ⟨.comment, '/' :: cs.takeWhile (· != '\n')⟩
      else ⟨.token .slash none, ['/']⟩ := rfl

theorem first_quote (cs : List Char) : first '"' cs = string cs := rfl

theorem first_blank {c : Char} (blank : c ∈ [' ', '\t', '\r', '\n']) (cs : List Char) :
    first c cs = ⟨.blank, [c]⟩ := by
  simp only [List.mem_cons, List.not_mem_nil, or_false] at blank
  rcases blank with rfl | rfl | rfl | rfl <;> rfl

/-- Any other character starts a number or a word, or nothing. -/
theorem first_other {c : Char} (other : c ∉ specials) (cs : List Char) :
    first c cs =
      if isDigit c then number c cs
      else if isNameStart c then word (c :: cs.takeWhile isNameChar) else ⟨.unexpected, [c]⟩ := by
  have noSingle : single? c = none := by
    unfold single?
    split <;> first | rfl | exact absurd (by decide) other
  have noPair : paired? c = none := by
    unfold paired?
    split <;> first | rfl | exact absurd (by decide) other
  have different (d : Char) (member : d ∈ specials) : c ≠ d := fun same => other (same ▸ member)
  simp [first, noSingle, noPair, different '/' (by decide), different ' ' (by decide),
    different '\r' (by decide), different '\t' (by decide), different '\n' (by decide),
    different '"' (by decide)]

theorem first_digit {c : Char} (digit : isDigit c) (cs : List Char) : first c cs = number c cs := by
  have other : c ∉ specials := by
    intro member
    have : ∀ d ∈ specials, isDigit d = false := by simp [specials, isDigit]
    rw [this c member] at digit
    cases digit
  rw [first_other other, if_pos digit]

theorem first_nameStart {c : Char} (start : isNameStart c) (cs : List Char) :
    first c cs = word (c :: cs.takeWhile isNameChar) := by
  have other : c ∉ specials := by
    intro member
    have : ∀ d ∈ specials, isNameStart d = false := by simp [specials, isNameStart]
    rw [this c member] at start
    cases start
  have noDigit : ¬ isDigit c := by
    intro digit
    rw [Stream.not_isNameStart_of_isDigit digit] at start
    cases start
  rw [first_other other, if_neg noDigit, if_pos start]

theorem ne_of_not_mem {c : Char} {cs : List Char} (outside : c ∉ cs) : ∀ d ∈ cs, (d != c) = true := by
  intro d member
  have : d ≠ c := fun same => outside (same ▸ member)
  simpa using this

theorem string_of_closing {body : List Char} (inside : '"' ∉ body) (rest : List Char) :
    string (body ++ '"' :: rest) =
      ⟨.token .string (some (.text (Text.ofChars body))), '"' :: body ++ ['"']⟩ := by
  have all := ne_of_not_mem inside
  unfold string
  rw [List.dropWhile_append_of_pos all, List.takeWhile_append_of_pos all]
  simp

theorem string_of_open {cs : List Char} (inside : '"' ∉ cs) : string cs = ⟨.unterminated, '"' :: cs⟩ := by
  have all := ne_of_not_mem inside
  have none : cs.dropWhile (· != '"') = [] := List.dropWhile_eq_nil_iff.mpr all
  have same : cs.takeWhile (· != '"') = cs := List.takeWhile_eq_self_iff.mpr all
  unfold string
  rw [none, same]

end Segment

/-! ## Lexemes and first segments -/

/-- Whether a segment is a token or a comment. -/
def SegmentKind.isLexeme : SegmentKind → Bool
  | .token .. | .comment => true
  | .blank | .unexpected | .unterminated => false

namespace Segment

theorem length_le_numberText (whole fraction : List Char) :
    whole.length ≤ (numberText whole fraction).length := by
  unfold numberText
  split <;> simp

theorem isLexeme_word (text : List Char) : (word text).kind.isLexeme := by
  unfold word
  split <;> rfl

/-- A lexeme with a text behind it: the first segment is a lexeme that is no shorter. -/
structure Reaches (text : List Char) (kind : SegmentKind) (rest : List Char) (s : Segment) : Prop where
  lexeme : s.kind.isLexeme
  length : text.length ≤ s.text.length
  alone : rest = [] → s = ⟨kind, text⟩

theorem reaches_comment {body : List Char} (line : '\n' ∉ body) (rest : List Char) :
    Reaches ('/' :: '/' :: body) .comment rest (first '/' ('/' :: body ++ rest)) := by
  have all : ∀ d ∈ '/' :: body, (d != '\n') = true := by
    intro d member
    have : d ≠ '\n' := by
      rintro rfl
      rcases List.mem_cons.mp member with same | inside
      · exact absurd same (by decide)
      · exact line inside
    simpa using this
  have taken : ('/' :: body ++ rest).takeWhile (· != '\n') =
      '/' :: body ++ rest.takeWhile (· != '\n') := List.takeWhile_append_of_pos all
  rw [first_slash, if_pos (by simp), taken]
  refine ⟨rfl, by simp, ?_⟩
  rintro rfl
  simp

theorem reaches_number {text : List Char} {x : Float} (shape : IsNumber text)
    (value : Numeral.readFloat? (Text.ofChars text) = some x) (rest : List Char) :
    ∃ c cs, text ++ rest = c :: cs ∧
      Reaches text (.token .number (some (.number x))) rest (first c cs) := by
  obtain ⟨whole, fraction', nonempty, digits, digits', rfl⟩ := shape
  have same : numberValue whole fraction' = x :=
    Option.some.inj ((Numeral.readFloat?_numberText digits digits' nonempty).symm.trans value)
  obtain ⟨c, ds, rfl⟩ := List.exists_cons_of_ne_nil nonempty
  have digit : isDigit c := digits c List.mem_cons_self
  have others : ∀ d ∈ ds, isDigit d := fun d member => digits d (List.mem_cons_of_mem _ member)
  by_cases none : fraction' = []
  · subst none
    refine ⟨c, ds ++ rest, rfl, ?_⟩
    rw [first_digit digit]
    have taken : (ds ++ rest).takeWhile isDigit = ds ++ rest.takeWhile isDigit :=
      List.takeWhile_append_of_pos others
    refine ⟨rfl, ?_, ?_⟩
    · have longer := length_le_numberText (c :: (ds ++ rest).takeWhile isDigit) (fraction (ds ++ rest))
      rw [taken] at longer
      show (c :: ds).length ≤ (numberText _ _).length
      rw [taken]
      simp only [List.length_cons, List.length_append] at longer ⊢
      omega
    · rintro rfl
      have noFraction : fraction ds = [] := by
        have : ds.dropWhile isDigit = [] := List.dropWhile_eq_nil_iff.mpr others
        simp [fraction, this]
      simp only [List.append_nil, number, List.takeWhile_eq_self_iff.mpr others, noFraction, same]
  · refine ⟨c, ds ++ ('.' :: (fraction' ++ rest)), by simp [numberText, none], ?_⟩
    rw [first_digit digit]
    have taken : (ds ++ ('.' :: (fraction' ++ rest))).takeWhile isDigit = ds := by
      rw [List.takeWhile_append_of_pos others, List.takeWhile_cons_of_neg (by decide), List.append_nil]
    have fraction_eq : fraction (ds ++ ('.' :: (fraction' ++ rest))) = fraction' ++ rest.takeWhile isDigit := by
      rw [fraction, List.dropWhile_append_of_pos others, List.dropWhile_cons_of_neg (by decide)]
      exact List.takeWhile_append_of_pos digits'
    have segment : number c (ds ++ ('.' :: (fraction' ++ rest))) =
        ⟨.token .number (some (.number (numberValue (c :: ds) (fraction' ++ rest.takeWhile isDigit)))),
          c :: ds ++ '.' :: (fraction' ++ rest.takeWhile isDigit)⟩ := by
      simp [number, taken, fraction_eq, numberText, none]
    rw [segment]
    refine ⟨rfl, by simp [numberText, none], ?_⟩
    rintro rfl
    simp [numberText, none, same]

theorem reaches_word {c : Char} {ds : List Char} (start : isNameStart c) (all : ∀ d ∈ ds, isNameChar d)
    (rest : List Char) : Reaches (c :: ds) (word (c :: ds)).kind rest (first c (ds ++ rest)) := by
  rw [first_nameStart start, List.takeWhile_append_of_pos all]
  refine ⟨isLexeme_word _, by simp [text_word], ?_⟩
  rintro rfl
  have text := text_word (c :: ds)
  cases same : word (c :: ds)
  simp_all

theorem reaches_mark {text : List Char} {kind : TokenKind} (listed : (text, kind) ∈ marks)
    (rest : List Char) : ∃ c cs, text ++ rest = c :: cs ∧ Reaches text (.token kind none) rest (first c cs) := by
  rcases mark_cases listed with
    ⟨c, rfl, found⟩ | ⟨c, alone, rfl, found⟩ | ⟨c, doubled, rfl, found⟩ | ⟨rfl, rfl⟩
  · refine ⟨c, rest, rfl, ?_⟩
    rw [first_single found]
    exact ⟨rfl, Nat.le_refl _, fun _ => rfl⟩
  · refine ⟨c, '=' :: rest, rfl, ?_⟩
    rw [first_paired found, if_pos List.head?_cons]
    exact ⟨rfl, Nat.le_refl _, fun _ => rfl⟩
  · refine ⟨c, rest, rfl, ?_⟩
    rw [first_paired found]
    split
    · rename_i next
      exact ⟨rfl, by simp, fun empty => by rw [empty] at next; cases next⟩
    · exact ⟨rfl, Nat.le_refl _, fun _ => rfl⟩
  · refine ⟨'/', rest, rfl, ?_⟩
    rw [first_slash]
    split
    · rename_i next
      exact ⟨rfl, by simp, fun empty => by rw [empty] at next; cases next⟩
    · exact ⟨rfl, Nat.le_refl _, fun _ => rfl⟩

/-- Where a lexeme stands, the first segment is a lexeme that is no shorter. -/
theorem reaches_of_belongs {text : List Char} {kind : SegmentKind} (belongs : Belongs text kind)
    (rest : List Char) :
    ∃ c cs, text ++ rest = c :: cs ∧ Reaches text kind rest (first c cs) := by
  cases belongs with
  | mark listed => exact reaches_mark listed rest
  | comment line => exact ⟨'/', _, rfl, reaches_comment line rest⟩
  | @string body inside =>
      refine ⟨'"', body ++ '"' :: rest, by simp, ?_⟩
      rw [first_quote, string_of_closing inside]
      exact ⟨rfl, Nat.le_refl _, fun _ => rfl⟩
  | number shape value => exact reaches_number shape value rest
  | @keyword text kind shape listed =>
      obtain ⟨c, ds, rfl, start, all⟩ := shape
      have segment : word (c :: ds) = ⟨.token kind none, c :: ds⟩ := by
        rw [word, mem_keywords_iff.mp listed]
      have reaches := reaches_word start all rest
      rw [segment] at reaches
      exact ⟨c, ds ++ rest, rfl, reaches⟩
  | @name text shape free =>
      obtain ⟨c, ds, rfl, start, all⟩ := shape
      have segment : word (c :: ds) =
          ⟨.token .identifier (some (.text (Text.ofChars (c :: ds)))), c :: ds⟩ := by
        rw [word, keyword?_eq_none_iff.mpr free]
      have reaches := reaches_word start all rest
      rw [segment] at reaches
      exact ⟨c, ds ++ rest, rfl, reaches⟩

/-- A text is in one class at most. -/
theorem belongs_unique {text : List Char} {kind kind' : SegmentKind} (belongs : Belongs text kind)
    (belongs' : Belongs text kind') : kind = kind' := by
  obtain ⟨c, cs, same, reaches⟩ := reaches_of_belongs belongs []
  obtain ⟨c', cs', same', reaches'⟩ := reaches_of_belongs belongs' []
  obtain ⟨rfl, rfl⟩ := List.cons.inj (same.symm.trans same')
  exact congrArg Segment.kind ((reaches.alone rfl).symm.trans (reaches'.alone rfl))

/-- Where a lexeme stands, the first segment is a lexeme that is no shorter. -/
theorem first_of_belongs {text : List Char} {kind : SegmentKind} (belongs : Belongs text kind) {c : Char}
    {cs : List Char} (stands : text <+: c :: cs) :
    (first c cs).kind.isLexeme ∧ text.length ≤ (first c cs).text.length := by
  obtain ⟨rest, same⟩ := stands
  obtain ⟨d, ds, same', reaches⟩ := reaches_of_belongs belongs rest
  obtain ⟨rfl, rfl⟩ := List.cons.inj (same.symm.trans same')
  exact ⟨reaches.lexeme, reaches.length⟩

theorem belongs_number {c : Char} (digit : isDigit c) (cs : List Char) :
    Belongs (number c cs).text (number c cs).kind := by
  have digits : ∀ d ∈ c :: cs.takeWhile isDigit, isDigit d :=
    List.forall_mem_cons.mpr ⟨digit, fun d member => List.all_eq_true.mp List.all_takeWhile d member⟩
  have digits' : ∀ d ∈ fraction cs, isDigit d := by
    unfold fraction
    split
    · exact fun d member => List.all_eq_true.mp List.all_takeWhile d member
    · nofun
  exact .number ⟨_, _, by simp, digits, digits', rfl⟩
    (Numeral.readFloat?_numberText digits digits' (by simp))

theorem belongs_word {text : List Char} (shape : IsWord text) :
    Belongs (word text).text (word text).kind := by
  unfold word
  split
  · exact .keyword shape (mem_keywords_iff.mpr ‹_›)
  · exact .name shape (keyword?_eq_none_iff.mp ‹_›)

theorem belongs_slash (cs : List Char) : Belongs (first '/' cs).text (first '/' cs).kind := by
  rw [first_slash]
  split
  · rename_i next
    obtain ⟨rest, rfl⟩ : ∃ rest, cs = '/' :: rest := List.head?_eq_some_iff.mp next
    rw [List.takeWhile_cons_of_pos (by decide)]
    refine .comment fun newline => ?_
    exact absurd (List.all_eq_true.mp List.all_takeWhile _ newline) (by decide)
  · exact .mark (by simp [marks])

/-! ## Cutting a text -/

/-- The blanks, each of which is a segment of its own. -/
def blanks : List Char := [' ', '\t', '\r', '\n']

/-- What a segment in front of the text `rest` is: the longest lexeme there is at its place, a blank, a
character that starts no lexeme, or a string that never closes. -/
inductive Heads (rest : List Char) : Segment → Prop where
  | lexeme {s : Segment} (belongs : Belongs s.text s.kind)
      (longest : ∀ text kind, Belongs text kind → text <+: s.text ++ rest →
        text.length ≤ s.text.length) : Heads rest s
  | blank {c : Char} (member : c ∈ blanks) : Heads rest ⟨.blank, [c]⟩
  | unexpected {c : Char} (noBlank : c ∉ blanks) (noQuote : c ≠ '"')
      (nothing : ∀ text kind, Belongs text kind → ¬ text <+: c :: rest) :
      Heads rest ⟨.unexpected, [c]⟩
  | unterminated {body : List Char} (inside : '"' ∉ body) (last : rest = []) :
      Heads rest ⟨.unterminated, '"' :: body⟩

section First

variable {c : Char} {cs rest : List Char}

theorem heads_of_belongs (same : (first c cs).text ++ rest = c :: cs)
    (belongs : Belongs (first c cs).text (first c cs).kind) : Heads rest (first c cs) := by
  refine .lexeme belongs fun text kind belongs' stands => ?_
  rw [same] at stands
  exact (first_of_belongs belongs' stands).2

theorem heads_of_unexpected (unexpected : first c cs = ⟨.unexpected, [c]⟩)
    (same : (first c cs).text ++ rest = c :: cs) (noBlank : c ∉ blanks) (noQuote : c ≠ '"') :
    Heads rest (first c cs) := by
  rw [unexpected] at same ⊢
  refine .unexpected noBlank noQuote fun text kind belongs stands => ?_
  have stands' : text <+: c :: cs := by rwa [← same]
  have lexeme := (first_of_belongs belongs stands').1
  rw [unexpected] at lexeme
  cases lexeme

/-- The first segment of a text is what has to stand there. -/
theorem heads_first (same : (first c cs).text ++ rest = c :: cs) : Heads rest (first c cs) := by
  by_cases digit : isDigit c
  · refine heads_of_belongs same ?_
    rw [first_digit digit]
    exact belongs_number digit cs
  by_cases start : isNameStart c
  · refine heads_of_belongs same ?_
    rw [first_nameStart start]
    refine belongs_word ⟨c, _, rfl, start, fun d member => ?_⟩
    exact List.all_eq_true.mp List.all_takeWhile d member
  by_cases quote : c = '"'
  · subst quote
    by_cases closes : '"' ∈ cs
    · refine heads_of_belongs same ?_
      obtain ⟨body, behind, rfl, inside⟩ := List.eq_append_cons_of_mem closes
      rw [first_quote, string_of_closing inside]
      exact .string inside
    · rw [first_quote, string_of_open closes] at same ⊢
      exact .unterminated closes (List.append_right_eq_self.mp same)
  by_cases blank : c ∈ blanks
  · rw [first_blank blank]
    exact .blank blank
  by_cases slash : c = '/'
  · subst slash
    exact heads_of_belongs same (belongs_slash cs)
  cases single : single? c with
  | some kind =>
      refine heads_of_belongs same ?_
      rw [first_single single]
      exact .mark (mem_marks_of_single single)
  | none =>
      cases paired : paired? c with
      | some kinds =>
          refine heads_of_belongs same ?_
          rw [first_paired paired]
          split
          · exact .mark (mem_marks_of_paired paired).1
          · exact .mark (mem_marks_of_paired paired).2
      | none =>
          have accounted : ∀ d ∈ specials, (single? d).isSome ∨ (paired? d).isSome ∨ d = '/' ∨
              d ∈ blanks ∨ d = '"' := by simp [specials, single?, paired?, blanks]
          have other : c ∉ specials := by
            intro member
            have := accounted c member
            simp [single, paired, slash, blank, quote] at this
          refine heads_of_unexpected ?_ same blank quote
          rw [first_other other, if_neg digit, if_neg start]

end First

/-- A segment that stands where a lexeme does is a lexeme that is no shorter. -/
theorem Heads.lexeme_of_belongs {s : Segment} {rest text : List Char} {kind : SegmentKind}
    (heads : Heads rest s) (belongs : Belongs text kind) (stands : text <+: s.text ++ rest) :
    Belongs s.text s.kind ∧ text.length ≤ s.text.length := by
  cases heads with
  | lexeme belongs' longest => exact ⟨belongs', longest text kind belongs stands⟩
  | blank member =>
      have lexeme := (first_of_belongs belongs stands).1
      rw [first_blank member] at lexeme
      cases lexeme
  | unexpected noBlank noQuote nothing => exact absurd stands (nothing text kind belongs)
  | @unterminated body inside last =>
      subst last
      rw [List.append_nil] at stands
      have lexeme := (first_of_belongs belongs stands).1
      rw [first_quote, string_of_open inside] at lexeme
      cases lexeme

theorem eq_of_fields {s t : Segment} (kind : s.kind = t.kind) (text : s.text = t.text) : s = t := by
  cases s
  cases t
  cases kind
  cases text
  rfl

/-- There is one way to cut a segment off the head of a text. -/
theorem Heads.unique {s t : Segment} {rest behind : List Char} (heads : Heads rest s)
    (heads' : Heads behind t) (same : s.text ++ rest = t.text ++ behind) : s = t := by
  cases heads with
  | lexeme belongs longest =>
      obtain ⟨belongs', longer⟩ := heads'.lexeme_of_belongs belongs ⟨rest, same⟩
      have shorter := longest _ _ belongs' ⟨behind, same.symm⟩
      obtain ⟨text, -⟩ := List.append_inj same (Nat.le_antisymm longer shorter)
      rw [text] at belongs
      exact eq_of_fields (belongs_unique belongs belongs') text
  | blank member =>
      cases heads' with
      | lexeme belongs _ =>
          have lexeme := (first_of_belongs belongs ⟨_, same.symm⟩).1
          rw [first_blank member] at lexeme
          cases lexeme
      | blank _ => rw [(List.cons.inj same).1]
      | unexpected noBlank _ _ => exact absurd ((List.cons.inj same).1 ▸ member) noBlank
      | unterminated _ _ =>
          rw [(List.cons.inj same).1] at member
          exact absurd member (by decide)
  | unexpected noBlank noQuote nothing =>
      cases heads' with
      | lexeme belongs _ => exact absurd ⟨_, same.symm⟩ (nothing _ _ belongs)
      | blank member => exact absurd ((List.cons.inj same).1 ▸ member) noBlank
      | unexpected _ _ _ => rw [(List.cons.inj same).1]
      | unterminated _ _ => exact absurd (List.cons.inj same).1 noQuote
  | unterminated inside last =>
      cases heads' with
      | lexeme belongs _ =>
          subst last
          have lexeme := (first_of_belongs belongs ⟨_, same.symm⟩).1
          rw [first_quote, List.append_eq, List.append_nil, string_of_open inside] at lexeme
          cases lexeme
      | blank member =>
          rw [← (List.cons.inj same).1] at member
          exact absurd member (by decide)
      | unexpected _ noQuote _ => exact absurd (List.cons.inj same).1.symm noQuote
      | unterminated _ last' =>
          subst last last'
          rw [List.append_nil, List.append_nil] at same
          exact eq_of_fields rfl same

/-- Segments each of which has to stand where it does. -/
def Cuts (segments : List Segment) : Prop :=
  ∀ before s after, segments = before ++ s :: after → Heads (after.flatMap text) s

theorem cuts_cons {s : Segment} {segments : List Segment} :
    Cuts (s :: segments) ↔ Heads (segments.flatMap text) s ∧ Cuts segments := by
  constructor
  · intro cuts
    refine ⟨cuts [] s segments rfl, fun before t after same => ?_⟩
    exact cuts (s :: before) t after (by rw [same, List.cons_append])
  · rintro ⟨heads, cuts⟩ before t after same
    cases before with
    | nil =>
        obtain ⟨rfl, rfl⟩ := List.cons.inj same
        exact heads
    | cons u before => exact cuts before t after (List.cons.inj same).2

/-- A text is cut where it has to be. -/
theorem cuts_cut (cs : List Char) : Cuts (cut cs) := by
  fun_induction cut cs with
  | case1 =>
      intro before s after same
      exact absurd same (by simp)
  | case2 c cs segment ih =>
      refine cuts_cons.mpr ⟨heads_first ?_, ih⟩
      rw [flatMap_text_cut, ← List.prefix_iff_eq_append]
      exact text_first_prefix c cs

theorem Heads.text_ne_nil {s : Segment} {rest : List Char} (heads : Heads rest s) : s.text ≠ [] := by
  cases heads with
  | lexeme belongs _ =>
      intro empty
      obtain ⟨c, cs, same, -⟩ := reaches_of_belongs belongs []
      rw [empty] at same
      cases same
  | _ => simp

/-- There is one way to cut a text. -/
theorem Cuts.unique {segments others : List Segment} (cuts : Cuts segments) (cuts' : Cuts others)
    (same : segments.flatMap text = others.flatMap text) : segments = others := by
  induction segments generalizing others with
  | nil =>
      cases others with
      | nil => rfl
      | cons t others =>
          have empty := (List.append_eq_nil_iff.mp same.symm).1
          exact absurd empty (cuts_cons.mp cuts').1.text_ne_nil
  | cons s segments ih =>
      obtain ⟨heads, further⟩ := cuts_cons.mp cuts
      cases others with
      | nil => exact absurd (List.append_eq_nil_iff.mp same).1 heads.text_ne_nil
      | cons t others =>
          obtain ⟨heads', further'⟩ := cuts_cons.mp cuts'
          obtain rfl := heads.unique heads' same
          rw [List.flatMap_cons, List.flatMap_cons] at same
          rw [ih further further' (List.append_cancel_left same)]

/-! ## Lines -/

/-- A segment and the text in front of it. -/
structure Placed where
  before : List Char
  segment : Segment

/-- Segments at their places, the first of which stands behind `before`. -/
def placed (before : List Char) : List Segment → List Placed
  | [] => []
  | s :: rest => ⟨before, s⟩ :: placed (before ++ s.text) rest

theorem tokens_eq_placed (before : List Char) (segments : List Segment) :
    tokens (1 + before.count '\n') segments =
      (placed before segments).filterMap fun p =>
        p.segment.token? (1 + (p.before ++ p.segment.text).count '\n') := by
  induction segments generalizing before with
  | nil => rfl
  | cons s rest ih =>
      have line : 1 + before.count '\n' + s.newlines = 1 + (before ++ s.text).count '\n' := by
        rw [newlines, List.count_append, Nat.add_assoc]
      rw [tokens, line, ih, placed, List.filterMap_cons]
      cases s.token? (1 + (before ++ s.text).count '\n') <;> simp

theorem faults_eq_placed (before : List Char) (segments : List Segment) :
    faults (1 + before.count '\n') segments =
      (placed before segments).filterMap fun p => p.segment.fault? (1 + p.before.count '\n') := by
  induction segments generalizing before with
  | nil => rfl
  | cons s rest ih =>
      have line : 1 + before.count '\n' + s.newlines = 1 + (before ++ s.text).count '\n' := by
        rw [newlines, List.count_append, Nat.add_assoc]
      rw [faults, line, ih, placed, List.filterMap_cons]
      cases s.fault? (1 + before.count '\n') <;> simp

end Segment

open Segment in
/-- **Scanning is lossless and takes the longest lexeme.**  A text has segments that concatenate to it
and of which each is what has to stand at its place, and no other segments are so.  The tokens are
those of the segments, on the line on which each ends, and behind them the one that ends texts, which
is the only one of its kind; the diagnostics are those of the characters that start nothing and of
the string that never closes, on the line on which each starts. -/
theorem scan_is_maximal_munch (source : String) :
    ∃ segments : List Segment, segments.flatMap text = source.toList ∧ Cuts segments ∧
      (∀ others, others.flatMap text = source.toList → Cuts others → others = segments) ∧
      (scan source).tokens =
        ((placed [] segments).filterMap fun p =>
          p.segment.token? (1 + (p.before ++ p.segment.text).count '\n')) ++ [⟨.endOfInput, "", none, 0⟩] ∧
      (∀ t ∈ (scan source).tokens.dropLast, t.kind ≠ .endOfInput) ∧
      (scan source).diagnostics =
        (placed [] segments).filterMap fun p => p.segment.fault? (1 + p.before.count '\n') := by
  have whole : (cut source.toList).flatMap text = source.toList := flatMap_text_cut source.toList
  have cuts : Cuts (cut source.toList) := cuts_cut source.toList
  refine ⟨cut source.toList, whole, cuts, fun others same cuts' => ?_, ?_, ?_, ?_⟩
  · exact cuts'.unique cuts (same.trans whole.symm)
  · exact congrArg (· ++ [Token.ending]) (tokens_eq_placed [] (cut source.toList))
  · have inside := kind_scanned_ne_ending 1 source.toList
    simpa [scan] using inside
  · exact faults_eq_placed [] (cut source.toList)

end LoxLang
