/-
# LoxLang.Proofs.StreamTokens -- the two ways to cut a text agree

One front end cuts a text into the longest segments, the other reads it by terminals in a
fixed order.  On a text without form feeds they find the same tokens, as far as the
grammar uses them: what the terminals make of the text at hand is what they should make
of its first segment (`follows_first`).

Two things stay apart.  A token stands on the line where it ends for the one and on the
line where it starts for the other, which differ for strings only (`Token.atEnd`).  And the
terminals give up at the first character that starts none of them, so nothing is said about
what stands behind it.
-/
import Mathlib
import LoxLang.Grammar.Stream
import LoxLang.Proofs.Derivation

namespace LoxLang.Stream

open Lexeme

set_option autoImplicit false

/-! ## Classes of characters -/

theorem isDigit_iff {c : Char} : isDigit c ↔ 48 ≤ c.toNat ∧ c.toNat ≤ 57 := by
  simp only [isDigit, Bool.and_eq_true, decide_eq_true_eq, Char.le_def, UInt32.le_iff_toNat_le]
  rfl

theorem eq_underscore_iff {c : Char} : c = '_' ↔ c.toNat = 95 := by
  rw [← Char.toNat_inj]
  rfl

theorem isNameStart_iff {c : Char} :
    isNameStart c ↔
      (97 ≤ c.toNat ∧ c.toNat ≤ 122) ∨ (65 ≤ c.toNat ∧ c.toNat ≤ 90) ∨ c.toNat = 95 := by
  simp only [isNameStart, Bool.or_eq_true, Bool.and_eq_true, decide_eq_true_eq, beq_iff_eq,
    eq_underscore_iff, Char.le_def, UInt32.le_iff_toNat_le, or_assoc]
  rfl

theorem not_isNameStart_of_isDigit {c : Char} (digit : isDigit c) : isNameStart c = false := by
  rw [← Bool.not_eq_true, isNameStart_iff]
  rw [isDigit_iff] at digit
  omega

/-- The characters of names are word characters; there are no others below the other scripts. -/
theorem isWordChar_iff_of_lt {c : Char} (small : c.toNat < 0x80) : Text.isWordChar c ↔ isNameChar c := by
  rw [isNameChar, Bool.or_eq_true, isNameStart_iff, isDigit_iff, Text.isWordChar, if_pos small]
  simp only [Char.isAlphanum, Char.isAlpha, Char.isUpper, Char.isLower, Char.isDigit, Bool.or_eq_true,
    Bool.and_eq_true, decide_eq_true_eq, beq_iff_eq, eq_underscore_iff, UInt32.le_iff_toNat_le,
    ge_iff_le]
  show (((65 ≤ c.toNat ∧ c.toNat ≤ 90) ∨ (97 ≤ c.toNat ∧ c.toNat ≤ 122)) ∨
    (48 ≤ c.toNat ∧ c.toNat ≤ 57)) ∨ c.toNat = 95 ↔ _
  omega

theorem isNameChar_lt {c : Char} (name : isNameChar c) : c.toNat < 0x80 := by
  rw [isNameChar, Bool.or_eq_true, isNameStart_iff, isDigit_iff] at name
  omega

/-! ## One terminal -/

variable {c : Char} {cs : List Char}

/-- Reading goes on behind the characters that the first fitting terminal takes. -/
theorem lex_of_first? {terminal : Terminal} {further : List Char}
    (found : first? c cs = some (terminal, further)) (line : Nat) :
    lex line (c :: cs) = push (terminal.token? line (c :: further))
      (lex (line + (c :: further).count '\n') ((c :: cs).drop (c :: further).length)) := by
  rw [lex, found]
  rfl

/-- A text breaks off if the stream of it does, whatever line it starts on. -/
def Broken (cs : List Char) : Prop := ∀ line, (lex line cs).fault ≠ none

theorem broken_of_none (refused : first? c cs = none) : Broken (c :: cs) := by
  intro line
  rw [lex, refused]
  exact Option.some_ne_none _

theorem broken_of_later {terminal : Terminal} {further : List Char}
    (found : first? c cs = some (terminal, further))
    (later : Broken ((c :: cs).drop (c :: further).length)) : Broken (c :: cs) := by
  intro line
  rw [lex_of_first? found]
  exact later _

/-- The characters that a mark can start with. -/
def markChars : List Char := ['!', '=', '>', '<', '-', '+', '/', '*', ';', '(', ')']

theorem exists_head_of_mem_marks : ∀ terminal ∈ marks,
    ∃ kind d rest, terminal = .mark kind (d :: rest) ∧ d ∈ markChars ∧ '\n' ∉ d :: rest := by
  simp [marks, markChars]

theorem take?_mark_eq_none (other : c ∉ markChars) {terminal : Terminal} (member : terminal ∈ marks) :
    terminal.take? c cs = none := by
  obtain ⟨kind, d, rest, rfl, starts, -⟩ := exists_head_of_mem_marks terminal member
  have different : d ≠ c := by
    rintro rfl
    exact other starts
  simp [Terminal.take?, different]

/-- No terminal takes a character outside of every class. -/
theorem first?_eq_none (name : Terminal.name.take? c cs = none) (digit : isDigit c = false)
    (string : Terminal.string.take? c cs = none) (blank : isBlank c = false) (mark : c ∉ markChars) :
    first? c cs = none := by
  have slash : c ≠ '/' := by
    rintro rfl
    exact mark (by decide)
  rw [first?, List.findSome?_eq_none_iff]
  intro terminal member
  rw [Option.map_eq_none_iff]
  rcases List.mem_append.mp member with member | member
  · simp only [List.mem_cons, List.not_mem_nil, or_false] at member
    rcases member with rfl | rfl | rfl | rfl | rfl
    · exact name
    · simp [Terminal.take?, slash]
    · simp [Terminal.take?, digit]
    · exact string
    · simp [Terminal.take?, blank]
  · exact take?_mark_eq_none mark member

/-- The characters that a terminal other than a name or a number can start with. -/
def separators : List Char := ['"', ' ', '\t', '\x0c', '\r', '\n'] ++ markChars

theorem first?_eq_none_of_other (name : Terminal.name.take? c cs = none) (digit : isDigit c = false)
    (other : c ∉ separators) : first? c cs = none := by
  rw [separators, List.mem_append, not_or] at other
  obtain ⟨other, mark⟩ := other
  simp only [List.mem_cons, List.not_mem_nil, or_false, not_or] at other
  refine first?_eq_none name digit ?_ ?_ mark
  · simp [Terminal.take?, other]
  · simp [isBlank, other]

/-! ## One segment -/

/-- The kinds of token that the grammar has no use for. -/
def unusedKinds : List TokenKind :=
  [.leftBrace, .rightBrace, .comma, .dot, .wordAnd, .wordClass, .wordElse, .wordFor, .wordFun, .wordIf,
   .wordOr, .wordReturn, .wordSuper, .wordThis, .wordWhile]

/-- The stream of a text starts as its first segment demands: with the segment's token if the grammar
uses it, with nothing if the segment gives no token, and broken off otherwise. -/
def Follows (c : Char) (cs : List Char) (s : Segment) : Prop :=
  match s.kind with
  | .token kind literal =>
      kind ∈ unusedKinds ∧ Broken (c :: cs) ∨
        kind ∉ unusedKinds ∧ ∀ line, lex line (c :: cs) =
          push (some ⟨kind, Text.ofChars s.text, literal, line⟩)
            (lex (line + s.newlines) ((c :: cs).drop s.text.length))
  | .blank | .comment =>
      ∀ line, lex line (c :: cs) = lex (line + s.newlines) ((c :: cs).drop s.text.length)
  | .unexpected | .unterminated => Broken (c :: cs)

theorem follows_token {terminal : Terminal} {further : List Char} {kind : TokenKind}
    {literal : Option Literal} (found : first? c cs = some (terminal, further))
    (used : kind ∉ unusedKinds)
    (token : ∀ line, terminal.token? line (c :: further) =
      some ⟨kind, Text.ofChars (c :: further), literal, line⟩) :
    Follows c cs ⟨.token kind literal, c :: further⟩ := by
  refine .inr ⟨used, fun line => ?_⟩
  rw [lex_of_first? found, token]
  rfl

/-- A mark is taken by its own terminal. -/
theorem follows_mark {kind : TokenKind} {further : List Char}
    (found : first? c cs = some (.mark kind (c :: further), further)) (used : kind ∉ unusedKinds) :
    Follows c cs ⟨.token kind none, c :: further⟩ :=
  follows_token found used fun _ => rfl

theorem first?_single {kind : TokenKind} (single : single? c = some kind) (cs : List Char) :
    first? c cs = if kind ∈ unusedKinds then none else some (.mark kind [c], []) := by
  unfold single? at single
  split at single <;> cases single <;>
    simp [first?, terminals, marks, Terminal.take?, isNameStart, isDigit, isBlank, unusedKinds]

theorem follows_single {kind : TokenKind} (single : single? c = some kind) :
    Follows c cs ⟨.token kind none, [c]⟩ := by
  have found := first?_single single cs
  by_cases unused : kind ∈ unusedKinds
  · rw [if_pos unused] at found
    exact .inl ⟨unused, broken_of_none found⟩
  · rw [if_neg unused] at found
    exact follows_mark found unused

theorem first?_paired {doubled alone : TokenKind} (paired : paired? c = some (doubled, alone))
    (cs : List Char) :
    first? c cs =
      if cs.head? = some '=' then some (.mark doubled [c, '='], ['=']) else some (.mark alone [c], []) := by
  unfold paired? at paired
  split at paired <;> cases paired <;> cases cs with
  | nil => simp [first?, terminals, marks, Terminal.take?, isNameStart, isDigit, isBlank]
  | cons d rest =>
      by_cases equals : d = '='
      · simp [first?, terminals, marks, Terminal.take?, isNameStart, isDigit, isBlank, equals]
      · simp [first?, terminals, marks, Terminal.take?, isNameStart, isDigit, isBlank, equals, Ne.symm equals]

theorem paired_used {doubled alone : TokenKind} (paired : paired? c = some (doubled, alone)) :
    doubled ∉ unusedKinds ∧ alone ∉ unusedKinds := by
  unfold paired? at paired
  split at paired <;> cases paired <;> decide

theorem follows_paired {doubled alone : TokenKind} (paired : paired? c = some (doubled, alone)) :
    Follows c cs
      (if cs.head? = some '=' then ⟨.token doubled none, [c, '=']⟩ else ⟨.token alone none, [c]⟩) := by
  have found := first?_paired paired cs
  have used := paired_used paired
  by_cases equals : cs.head? = some '='
  · rw [if_pos equals] at found ⊢
    exact follows_mark found used.1
  · rw [if_neg equals] at found ⊢
    exact follows_mark found used.2

theorem follows_slash (alone : cs.head? ≠ some '/') : Follows '/' cs ⟨.token .slash none, ['/']⟩ := by
  refine follows_mark ?_ (by decide)
  simp [first?, terminals, marks, Terminal.take?, isNameStart, isDigit, isBlank, alone]

theorem follows_comment (double : cs.head? = some '/') :
    Follows '/' cs ⟨.comment, '/' :: cs.takeWhile (· != '\n')⟩ := by
  have found : first? '/' cs = some (.comment, cs.takeWhile (· != '\n')) := by
    simp [first?, terminals, Terminal.take?, isNameStart, double]
  intro line
  rw [lex_of_first? found]
  rfl

theorem drop_takeWhile (p : Char → Bool) (cs : List Char) :
    cs.drop (cs.takeWhile p).length = cs.dropWhile p := by
  have behind : (cs.takeWhile p ++ cs.dropWhile p).drop (cs.takeWhile p).length = cs.dropWhile p :=
    List.drop_left
  rwa [List.takeWhile_append_dropWhile] at behind

theorem lex_blanks (blank : isBlank c) (cs : List Char) (line : Nat) :
    lex line (c :: cs) = lex (line + (c :: cs.takeWhile isBlank).count '\n') (cs.dropWhile isBlank) := by
  have found : first? c cs = some (.blanks, cs.takeWhile isBlank) := by
    simp only [isBlank, Bool.or_eq_true, decide_eq_true_eq] at blank
    rcases blank with (((rfl | rfl) | rfl) | rfl) | rfl <;>
      simp [first?, terminals, Terminal.take?, isNameStart, isDigit, isBlank]
  rw [lex_of_first? found, ← drop_takeWhile isBlank cs]
  rfl

/-- Blanks are taken together; one by one they come to the same. -/
theorem lex_blank (blank : isBlank c) (cs : List Char) (line : Nat) :
    lex line (c :: cs) = lex (line + [c].count '\n') cs := by
  rw [lex_blanks blank]
  cases cs with
  | nil => rfl
  | cons d ds =>
      by_cases further : isBlank d
      · have count : line + (c :: d :: ds.takeWhile isBlank).count '\n' =
            line + [c].count '\n' + (d :: ds.takeWhile isBlank).count '\n' := by
          rw [Nat.add_assoc, ← List.count_append, List.singleton_append]
        rw [lex_blanks further, List.takeWhile_cons_of_pos further, List.dropWhile_cons_of_pos further,
          count]
      · rw [List.takeWhile_cons_of_neg further, List.dropWhile_cons_of_neg further]

theorem follows_blank (blank : isBlank c) : Follows c cs ⟨.blank, [c]⟩ := fun line => lex_blank blank cs line

/-! ### Numbers and strings -/

theorem optionalFraction_eq (cs : List Char) :
    optionalFraction (cs.dropWhile isDigit) =
      if (fraction cs).isEmpty then [] else '.' :: fraction cs := by
  unfold fraction
  split
  · rename_i rest point
    rw [point]
    cases rest with
    | nil => rfl
    | cons d ds =>
        by_cases digit : isDigit d
        · simp [optionalFraction, digit]
        · simp [optionalFraction, digit]
  · rename_i noPoint
    unfold optionalFraction
    split
    · rename_i point
      exact absurd point (noPoint _)
    · rfl

theorem numberText_eq (whole cs : List Char) :
    numberText whole (fraction cs) = whole ++ optionalFraction (cs.dropWhile isDigit) := by
  rw [optionalFraction_eq, numberText]
  split <;> simp

/-- The digits on both sides of the point are found again in the text of a number. -/
theorem number_parts {whole : List Char} (digits : ∀ d ∈ whole, isDigit d) (cs : List Char) :
    (numberText whole (fraction cs)).takeWhile isDigit = whole ∧
      ((numberText whole (fraction cs)).dropWhile isDigit).drop 1 = fraction cs := by
  rw [numberText_eq, List.takeWhile_append_of_pos digits, List.dropWhile_append_of_pos digits,
    optionalFraction_eq]
  split
  · rename_i none
    have empty : fraction cs = [] := by simpa using none
    simp [empty]
  · simp [isDigit]

/-- Digits, and a point with digits behind it, are taken as a number. -/
theorem follows_number (digit : isDigit c) : Follows c cs (Segment.number c cs) := by
  have noName := not_isNameStart_of_isDigit digit
  have noSlash : c ≠ '/' := by
    rintro rfl
    exact absurd digit (by decide)
  have digits : ∀ d ∈ c :: cs.takeWhile isDigit, isDigit d := by
    refine List.forall_mem_cons.mpr ⟨digit, fun d member => ?_⟩
    exact List.all_eq_true.mp List.all_takeWhile d member
  have found : first? c cs =
      some (.number, cs.takeWhile isDigit ++ optionalFraction (cs.dropWhile isDigit)) := by
    simp [first?, terminals, Terminal.take?, noName, noSlash, digit]
  have parts := number_parts digits cs
  have text := numberText_eq (c :: cs.takeWhile isDigit) cs
  have token (line : Nat) : Terminal.number.token? line (numberText (c :: cs.takeWhile isDigit) (fraction cs)) =
      some ⟨.number, Text.ofChars (numberText (c :: cs.takeWhile isDigit) (fraction cs)),
        some (.number (numberValue (c :: cs.takeWhile isDigit) (fraction cs))), line⟩ := by
    simp only [Terminal.token?, parts.1, parts.2]
  rw [Segment.number, text]
  rw [text] at token
  exact follows_token found (by decide) token

theorem follows_string : Follows '"' cs (Segment.string cs) := by
  have dropped : cs.dropWhile (· != '"') = [] ↔ '"' ∉ cs := by
    rw [List.dropWhile_eq_nil_iff]
    constructor
    · intro all member
      simpa using all '"' member
    · intro absent d member
      have different : d ≠ '"' := fun same => absent (same ▸ member)
      simpa using different
  unfold Segment.string
  split
  · rename_i none
    refine broken_of_none (first?_eq_none ?_ (by decide) ?_ (by decide) (by decide))
    · simp [Terminal.take?, isNameStart]
    · simp [Terminal.take?, dropped.mp none]
  · rename_i tail
    have present : '"' ∈ cs := by
      by_contra absent
      rw [dropped.mpr absent] at tail
      cases tail
    have found : first? '"' cs = some (.string, cs.takeWhile (· != '"') ++ ['"']) := by
      simp [first?, terminals, Terminal.take?, isNameStart, isDigit, present]
    refine follows_token found (by decide) fun line => ?_
    simp [Terminal.token?]

/-! ### Words -/

theorem keyword?_of_word? {s : String} {kind : TokenKind} (found : word? s = some kind) :
    TokenKind.keyword? s = some kind ∧ kind ∉ unusedKinds := by
  unfold word? at found
  split at found <;> cases found <;> exact ⟨rfl, by decide⟩

theorem keyword?_of_reserved {s : String} (reserved : s ∈ reservedWords) :
    word? s = none ∧ ∃ kind ∈ unusedKinds, TokenKind.keyword? s = some kind := by
  simp only [reservedWords, List.mem_cons, List.not_mem_nil, or_false] at reserved
  rcases reserved with rfl | rfl | rfl | rfl | rfl | rfl | rfl | rfl | rfl | rfl | rfl <;>
    exact ⟨rfl, _, by decide, rfl⟩

theorem keyword?_eq_none {s : String} (noWord : word? s = none) (free : s ∉ reservedWords) :
    TokenKind.keyword? s = none := by
  unfold TokenKind.keyword?
  split <;> simp_all [word?, reservedWords]

theorem isNameChar_of_mem_reserved : ∀ word ∈ reservedWords, ∀ d ∈ word.toList, isNameChar d := by
  simp [reservedWords, isNameChar, isNameStart]

/-- A reserved word that ends at the head of a text is the whole word that stands there. -/
theorem reservedAhead_iff (start : isNameStart c) (cs : List Char) :
    reservedAhead (c :: cs) ↔
      String.ofList (c :: cs.takeWhile isNameChar) ∈ reservedWords ∧
        (cs.dropWhile isNameChar).head?.any Text.isWordChar = false := by
  have whole : c :: cs = (c :: cs.takeWhile isNameChar) ++ cs.dropWhile isNameChar := by
    rw [List.cons_append, List.takeWhile_append_dropWhile]
  have name : ∀ d ∈ c :: cs.takeWhile isNameChar, isNameChar d := by
    refine List.forall_mem_cons.mpr ⟨by rw [isNameChar, start, Bool.true_or], fun d member => ?_⟩
    exact List.all_eq_true.mp List.all_takeWhile d member
  have stops : ∀ d ds, cs.dropWhile isNameChar = d :: ds → isNameChar d = false := by
    intro d ds behind
    have := List.head?_dropWhile_not isNameChar cs
    rw [behind] at this
    simpa using this
  generalize c :: cs.takeWhile isNameChar = w at whole name
  generalize cs.dropWhile isNameChar = rest at whole stops
  simp only [reservedAhead, List.any_eq_true, Bool.and_eq_true, Bool.not_eq_true',
    List.isPrefixOf_iff_prefix]
  constructor
  · rintro ⟨word, member, ⟨behind, same⟩, ends⟩
    rw [← same, List.drop_left] at ends
    have word' : String.ofList word.toList = word := String.ofList_toList
    rw [whole] at same
    rcases List.append_eq_append_iff.mp same with ⟨more, rfl, rfl⟩ | ⟨more, longer, rfl⟩
    · cases more with
      | nil =>
          rw [List.append_nil, word']
          exact ⟨member, ends⟩
      | cons d ds =>
          -- The word goes on with a character of names.
          have inName := name d (by simp)
          have wordChar := (isWordChar_iff_of_lt (isNameChar_lt inName)).mpr inName
          simp [wordChar] at ends
    · cases more with
      | nil =>
          rw [List.append_nil] at longer
          rw [← longer, word']
          exact ⟨member, ends⟩
      | cons d ds =>
          have inName := isNameChar_of_mem_reserved word member d (by simp [longer])
          rw [stops d (ds ++ behind) rfl] at inName
          cases inName
  · rintro ⟨member, ends⟩
    refine ⟨_, member, ?_, ?_⟩
    · rw [String.toList_ofList, whole]
      exact List.prefix_append w rest
    · rw [String.toList_ofList, whole, List.drop_left]
      exact ends

/-- A reserved word is taken by no terminal. -/
theorem first?_reserved (start : isNameStart c) (ahead : reservedAhead (c :: cs)) :
    first? c cs = none := by
  have notDigit : isDigit c = false := by
    by_contra digit
    rw [not_isNameStart_of_isDigit (by simpa using digit)] at start
    cases start
  have notStart : ∀ d ∈ separators, isNameStart d = false := by
    simp [separators, markChars, isNameStart]
  refine first?_eq_none_of_other ?_ notDigit fun member => ?_
  · simp [Terminal.take?, ahead]
  · rw [notStart c member] at start
    cases start

/-- No terminal starts with a character of another script. -/
theorem first?_wide (wide : 0x80 ≤ c.toNat) (cs : List Char) : first? c cs = none := by
  have notName : isNameStart c = false := by
    rw [← Bool.not_eq_true, isNameStart_iff]
    omega
  have notDigit : isDigit c = false := by
    rw [← Bool.not_eq_true, isDigit_iff]
    omega
  have small : ∀ d ∈ separators, d.toNat < 0x80 := by simp [separators, markChars]
  refine first?_eq_none_of_other ?_ notDigit fun member => ?_
  · simp [Terminal.take?, notName]
  · have := small c member
    omega

/-- A word that is not reserved, or that another script goes on with, is taken as a name. -/
theorem first?_name (start : isNameStart c) (free : reservedAhead (c :: cs) = false) :
    first? c cs = some (.name, cs.takeWhile isNameChar) := by
  simp [first?, terminals, Terminal.take?, start, free]

theorem follows_word (start : isNameStart c) :
    Follows c cs (Segment.word (c :: cs.takeWhile isNameChar)) := by
  have ahead := reservedAhead_iff start cs
  unfold Segment.word
  by_cases reserved : String.ofList (c :: cs.takeWhile isNameChar) ∈ reservedWords
  · obtain ⟨noWord, kind, unused, keyword⟩ := keyword?_of_reserved reserved
    rw [keyword]
    refine .inl ⟨unused, ?_⟩
    by_cases ends : (cs.dropWhile isNameChar).head?.any Text.isWordChar = false
    · exact broken_of_none (first?_reserved start (ahead.mpr ⟨reserved, ends⟩))
    · have free : reservedAhead (c :: cs) = false := by
        rw [← Bool.not_eq_true, ahead]
        exact fun both => ends both.2
      refine broken_of_later (first?_name start free) ?_
      show Broken (cs.drop (cs.takeWhile isNameChar).length)
      rw [drop_takeWhile]
      cases behind : cs.dropWhile isNameChar with
      | nil => simp [behind] at ends
      | cons d ds =>
          have noName : isNameChar d = false := by
            have := List.head?_dropWhile_not isNameChar cs
            rw [behind] at this
            simpa using this
          have wordChar : Text.isWordChar d := by simpa [behind] using ends
          refine broken_of_none (first?_wide ?_ ds)
          by_contra small
          rw [isWordChar_iff_of_lt (by omega), noName] at wordChar
          cases wordChar
  · have free : reservedAhead (c :: cs) = false := by
      rw [← Bool.not_eq_true, ahead]
      exact fun both => reserved both.1
    have found := first?_name start free
    cases word : word? (String.ofList (c :: cs.takeWhile isNameChar)) with
    | some kind =>
        obtain ⟨keyword, used⟩ := keyword?_of_word? word
        rw [keyword]
        exact follows_token found used fun line => by simp only [Terminal.token?, word]
    | none =>
        rw [keyword?_eq_none word reserved]
        exact follows_token found (by decide) fun line => by simp only [Terminal.token?, word]

/-! ### Every segment -/

/-- The stream of a text starts as its first segment demands. -/
theorem follows_first (noFormFeed : c ≠ '\x0c') (cs : List Char) : Follows c cs (Segment.first c cs) := by
  unfold Segment.first
  split
  · rename_i kind single
    exact follows_single single
  · rename_i doubled alone noSingle paired
    exact follows_paired paired
  · rename_i noSingle noPaired
    split
    · rename_i slash
      subst slash
      split
      · rename_i double
        exact follows_comment double
      · rename_i alone
        exact follows_slash alone
    · rename_i noSlash
      split
      · rename_i blank
        refine follows_blank ?_
        simp only [Bool.or_eq_true, decide_eq_true_eq] at blank
        rcases blank with ((rfl | rfl) | rfl) | rfl <;> rfl
      · rename_i noBlank
        split
        · rename_i quote
          subst quote
          exact follows_string
        · rename_i noQuote
          split
          · rename_i digit
            exact follows_number digit
          · rename_i noDigit
            split
            · rename_i start
              exact follows_word start
            · rename_i noName
              refine broken_of_none (first?_eq_none_of_other ?_ (by simpa using noDigit) ?_)
              · simp [Terminal.take?, noName]
              · intro member
                simp only [separators, markChars, List.cons_append, List.nil_append, List.mem_cons,
                  List.not_mem_nil, or_false] at member
                rcases member with rfl | rfl | rfl | rfl | rfl | rfl | rfl | rfl | rfl | rfl | rfl | rfl |
                  rfl | rfl | rfl | rfl | rfl <;>
                  simp [single?, paired?] at noSingle noPaired noSlash noBlank noQuote noFormFeed

/-! ## Whole texts -/

/-- The same token on the line where it ends, for one that stands on the line where it starts. -/
def atEnd (t : Token) : Token := { t with line := t.line + t.lexeme.count (.char '\n') }

theorem count_ofChars (d : Char) (text : List Char) :
    (Text.ofChars text).count (.char d) = text.count d :=
  List.count_map_of_injective text CodePoint.char (fun _ _ => CodePoint.char.inj) d

theorem atEnd_ofChars (kind : TokenKind) (text : List Char) (literal : Option Literal) (line : Nat) :
    atEnd ⟨kind, Text.ofChars text, literal, line⟩ =
      ⟨kind, Text.ofChars text, literal, (line + text.count '\n' : Nat)⟩ := by
  simp only [atEnd, count_ofChars, Int.natCast_add]

/-- What is cut off in front of a text without form feeds leaves one without them. -/
theorem follows_cut (noFormFeed : '\x0c' ∉ c :: cs) :
    Follows c cs (Segment.first c cs) ∧
      '\x0c' ∉ (c :: cs).drop (Segment.first c cs).text.length := by
  refine ⟨follows_first ?_ cs, fun member => noFormFeed (List.mem_of_mem_drop member)⟩
  rintro rfl
  exact noFormFeed List.mem_cons_self

/-- Where the stream of a text does not break off, the text has no faults, and its tokens are those
of the stream. -/
theorem lex_sound (cs : List Char) (noFormFeed : '\x0c' ∉ cs) (line : Nat)
    (whole : (lex line cs).fault = none) :
    Segment.faults line (Segment.cut cs) = [] ∧
      Segment.tokens line (Segment.cut cs) = (lex line cs).tokens.map atEnd := by
  fun_induction Segment.cut cs generalizing line with
  | case1 =>
      rw [lex]
      exact ⟨rfl, rfl⟩
  | case2 c cs s ih =>
      obtain ⟨follows, noFormFeed'⟩ : Follows c cs s ∧ '\x0c' ∉ (c :: cs).drop s.text.length :=
        follows_cut noFormFeed
      rw [Segment.faults, Segment.tokens]
      unfold Follows at follows
      split at follows
      · rename_i kind literal isToken
        rcases follows with ⟨-, broken⟩ | ⟨-, follows⟩
        · exact absurd whole (broken line)
        · rw [follows] at whole ⊢
          obtain ⟨faults, tokens⟩ := ih noFormFeed' (line + s.newlines) whole
          have last : atEnd ⟨kind, Text.ofChars s.text, literal, line⟩ =
              ⟨kind, Text.ofChars s.text, literal, (line + s.newlines : Nat)⟩ :=
            atEnd_ofChars kind s.text literal line
          simp only [Segment.fault?, Segment.token?, isToken, faults, tokens, push, Option.toList_none,
            Option.toList_some, List.nil_append, List.singleton_append, List.map_cons, last, and_self]
      · rename_i isBlank
        rw [follows] at whole ⊢
        obtain ⟨faults, tokens⟩ := ih noFormFeed' (line + s.newlines) whole
        simp [Segment.fault?, Segment.token?, isBlank, faults, tokens]
      · rename_i isComment
        rw [follows] at whole ⊢
        obtain ⟨faults, tokens⟩ := ih noFormFeed' (line + s.newlines) whole
        simp [Segment.fault?, Segment.token?, isComment, faults, tokens]
      · exact absurd whole (follows line)
      · exact absurd whole (follows line)

/-- Where a text has no faults and the grammar uses all its tokens, the stream of it does not break
off. -/
theorem lex_complete (cs : List Char) (noFormFeed : '\x0c' ∉ cs) (line : Nat)
    (clean : Segment.faults line (Segment.cut cs) = [])
    (used : ∀ t ∈ Segment.tokens line (Segment.cut cs), t.kind ∉ unusedKinds) :
    (lex line cs).fault = none := by
  fun_induction Segment.cut cs generalizing line with
  | case1 => rw [lex]
  | case2 c cs s ih =>
      obtain ⟨follows, noFormFeed'⟩ : Follows c cs s ∧ '\x0c' ∉ (c :: cs).drop s.text.length :=
        follows_cut noFormFeed
      rw [Segment.faults, List.append_eq_nil_iff] at clean
      rw [Segment.tokens, List.forall_mem_append] at used
      have onward := ih noFormFeed' (line + s.newlines) clean.2 used.2
      unfold Follows at follows
      split at follows
      · rename_i kind literal isToken
        rcases follows with ⟨unused, -⟩ | ⟨-, follows⟩
        · have member := used.1 ⟨kind, Text.ofChars s.text, literal, (line + s.newlines : Nat)⟩
            (by simp [Segment.token?, isToken])
          exact absurd unused member
        · rw [follows]
          exact onward
      · rw [follows]
        exact onward
      · rw [follows]
        exact onward
      · rename_i isUnexpected
        simp [Segment.fault?, isUnexpected] at clean
      · rename_i isUnterminated
        simp [Segment.fault?, isUnterminated] at clean

/-- Only strings go over the end of a line. -/
theorem no_newline {terminal : Terminal} {further : List Char} {line : Nat} {t : Token}
    (found : first? c cs = some (terminal, further))
    (token : terminal.token? line (c :: further) = some t) (other : t.kind ≠ .string) :
    '\n' ∉ c :: further := by
  obtain ⟨terminal', member, taken⟩ := List.exists_of_findSome?_eq_some found
  obtain ⟨further', taken, same⟩ := Option.map_eq_some_iff.mp taken
  cases same
  have outside (p : Char → Bool) (absent : p '\n' = false) : '\n' ∉ cs.takeWhile p := by
    intro member
    rw [List.all_eq_true.mp List.all_takeWhile _ member] at absent
    cases absent
  cases terminal with
  | name =>
      simp only [Terminal.take?, Option.ite_none_right_eq_some, Option.some.injEq, Bool.and_eq_true] at taken
      obtain ⟨⟨start, -⟩, rfl⟩ := taken
      rw [List.mem_cons, not_or]
      refine ⟨?_, outside isNameChar (by decide)⟩
      rintro rfl
      exact absurd start (by decide)
  | number =>
      simp only [Terminal.take?, Option.ite_none_right_eq_some, Option.some.injEq] at taken
      obtain ⟨digit, rfl⟩ := taken
      rw [List.mem_cons, List.mem_append, not_or, not_or]
      refine ⟨?_, outside isDigit (by decide), ?_⟩
      · rintro rfl
        exact absurd digit (by decide)
      · unfold optionalFraction
        split
        · rename_i d ds behind
          split
          · rename_i digit'
            simp only [List.mem_cons, not_or]
            refine ⟨by decide, ?_, ?_⟩
            · rintro rfl
              exact absurd digit' (by decide)
            · intro member
              exact absurd (List.all_eq_true.mp List.all_takeWhile _ member) (by decide)
          · exact List.not_mem_nil
        · exact List.not_mem_nil
  | mark kind text =>
      have isMark : .mark kind text ∈ marks := by simpa [terminals] using member
      obtain ⟨kind', d, rest, same, -, clean⟩ := exists_head_of_mem_marks _ isMark
      cases same
      simp only [Terminal.take?, Option.ite_none_right_eq_some, Option.some.injEq] at taken
      obtain ⟨starts, rfl⟩ := taken
      obtain ⟨rfl, -⟩ := List.cons_prefix_cons.mp (List.isPrefixOf_iff_prefix.mp starts)
      exact clean
  | string =>
      cases token
      exact absurd rfl other
  | comment => cases token
  | blanks => cases token

theorem lexeme_of_token? {terminal : Terminal} {line : Nat} {text : List Char} {t : Token}
    (token : terminal.token? line text = some t) : t.lexeme = Text.ofChars text := by
  cases terminal with
  | name =>
      simp only [Terminal.token?] at token
      split at token <;> cases token <;> rfl
  | comment => cases token
  | blanks => cases token
  | _ =>
      cases token
      rfl

theorem atEnd_eq_self (line : Nat) (cs : List Char) :
    ∀ t ∈ (lex line cs).tokens, t.kind ≠ .string → atEnd t = t := by
  fun_induction lex line cs with
  | case1 => nofun
  | case2 => nofun
  | case3 line c cs terminal further found ih =>
      intro t member other
      rcases List.mem_append.mp member with first | later
      · have token := Option.mem_toList.mp first
        have absent := no_newline found token other
        have count : t.lexeme.count (.char '\n') = 0 := by
          rw [lexeme_of_token? token, count_ofChars]
          exact List.count_eq_zero.mpr absent
        simp only [atEnd, count, Int.natCast_zero, Int.add_zero]
      · exact ih t later other

/-- What a syntax tree keeps of a token is the same at the start and at the end of it. -/
theorem alike_atEnd (line : Nat) (cs : List Char) : ∀ t ∈ (lex line cs).tokens, t.Alike (atEnd t) := by
  intro t member
  by_cases string : t.kind = .string
  · refine ⟨rfl, fun rule operator => ?_, fun name => ?_, fun _ => rfl⟩
    · rw [string] at operator
      cases rule <;> simp [Rule.operators] at operator
    · rw [string] at name
      cases name
  · rw [atEnd_eq_self line cs t member string]
    exact .refl t

end LoxLang.Stream
