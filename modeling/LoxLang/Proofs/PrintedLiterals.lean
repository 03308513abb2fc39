/-
# LoxLang.Proofs.PrintedLiterals -- printed values read back

The printed form of a value is an expression of the language, and its value is that value
again: digits, with a point only between digits and never an exponent, behind a minus sign
for a negative number; a string between quotes, newlines and all; a keyword for the rest.
The sign of zero is kept.  What cannot be read back is what no literal can write, which is
a string that holds a double quote and a number that is not finite.

Sources are strings of characters, but a string value can hold a surrogate.  `Text.scan`
scans texts of any code points and agrees with `scan` on the texts of characters
(`scan_ofString`), so that reading back is stated for every string.
-/
import LoxLang.Node.Printer
import LoxLang.Session
import LoxLang.Proofs.DescentGrammar
import LoxLang.Proofs.FileText
import LoxLang.Proofs.NumberText
import LoxLang.Proofs.Statements

namespace LoxLang

set_option autoImplicit false

open Lexeme

/-! ## Texts with surrogates -/

namespace Text

theorem ofChars_append (cs ds : List Char) : ofChars (cs ++ ds) = ofChars cs ++ ofChars ds :=
  List.map_append

theorem ofString_append (s t : String) : ofString (s ++ t) = ofString s ++ ofString t := by
  rw [ofString, String.toList_append, ofChars_append]
  rfl

end Text

/-- A lexeme that is a string token is a body between quotes. -/
theorem Lexeme.Belongs.string_cases {text : List Char} {literal : Option Literal}
    (belongs : Belongs text (.token .string literal)) :
    ∃ body, '"' ∉ body ∧ text = '"' :: (body ++ ['"']) ∧
      literal = some (.text (Text.ofChars body)) := by
  obtain ⟨_, carried⟩ := (Token.written_of_belongs belongs 0).string rfl
  cases belongs with
  | string inside => exact ⟨_, inside, rfl, rfl⟩
  | _ => cases carried

namespace Segment

/-- The token of a segment that is written as a text: a string stands for what is between its quotes. -/
def tokenAs? (s : Segment) (t : Text) (line : Nat) : Option Token :=
  (s.token? line).map fun token =>
    { token with
      lexeme := t
      literal := if token.kind = .string then some (.text t.tail.dropLast) else token.literal }

/-- The tokens of segments that are written as a text, the first of which starts on `line`. -/
def tokensAs (line : Nat) : List Segment → Text → List Token
  | [], _ => []
  | s :: rest, t =>
      (s.tokenAs? (t.take s.text.length) (line + s.newlines)).toList ++
        tokensAs (line + s.newlines) rest (t.drop s.text.length)

theorem tokensAs_cons (line : Nat) (s : Segment) (rest : List Segment) {t : Text}
    (length : t.length = s.text.length) (u : Text) :
    tokensAs line (s :: rest) (t ++ u) =
      (s.tokenAs? t (line + s.newlines)).toList ++ tokensAs (line + s.newlines) rest u := by
  rw [tokensAs, ← length, List.take_left, List.drop_left]

/-- A lexeme of characters has the token that its segment has. -/
theorem tokenAs?_ofChars {s : Segment} {rest : List Char} (heads : Heads rest s) (line : Nat) :
    s.tokenAs? (Text.ofChars s.text) line = s.token? line := by
  unfold tokenAs?
  cases token : s.token? line with
  | none => rfl
  | some t =>
      obtain ⟨lexeme, belongs, -⟩ := belongs_of_token? heads token
      simp only [Option.map_some]
      split
      · rename_i string
        rw [string] at belongs
        obtain ⟨body, -, text, literal⟩ := belongs.string_cases
        have inner : t.lexeme.tail.dropLast = Text.ofChars body := by simp [lexeme, text, Text.ofChars]
        rw [← lexeme, inner, ← literal]
      · rw [← lexeme]

theorem tokensAs_ofChars (line : Nat) {segments : List Segment} (cuts : Cuts segments) :
    tokensAs line segments (Text.ofChars (segments.flatMap text)) = tokens line segments := by
  induction segments generalizing line with
  | nil => rfl
  | cons s rest ih =>
      obtain ⟨heads, further⟩ := cuts_cons.mp cuts
      rw [List.flatMap_cons, Text.ofChars_append, tokensAs_cons _ _ _ (by simp [Text.ofChars]),
        tokenAs?_ofChars heads, ih _ further, tokens]

end Segment

namespace Text

/-- Scan a text of any code points.  A surrogate starts no lexeme, just as its replacement. -/
def scan (t : Text) : Scan :=
  let segments := Segment.cut t.chars
  ⟨Segment.tokensAs 1 segments t ++ [Token.ending], Segment.faults 1 segments⟩

theorem scan_ofString (s : String) : (ofString s).scan = LoxLang.scan s := by
  have tokens := Segment.tokensAs_ofChars 1 (Segment.cuts_cut s.toList)
  rw [Segment.flatMap_text_cut] at tokens
  simp only [scan, ofString, chars_ofChars, tokens]
  rfl

/-- Read a text of any code points by descent. -/
def read (t : Text) : Reading :=
  let reading := Descent.read (Descent.body t.scan.tokens)
  ⟨reading.statements, t.scan.diagnostics ++ reading.diagnostics⟩

theorem read_ofString (s : String) : (ofString s).read = FrontEnd.descent.read s := by
  rw [read, scan_ofString]
  rfl

end Text

/-- The value of the expression that a reading consists of. -/
def Reading.value? (r : Reading) (b : Bindings) : Option Value :=
  match r.diagnostics, r.statements with
  | [], [.expression value] => (value.eval evalLimit).run' ⟨b, []⟩
  | _, _ => none

/-- The value of an expression of any code points under bindings. -/
def Text.value? (t : Text) (b : Bindings) : Option Value := (t ++ ";").read.value? b

/-- On characters this is the value that evaluation returns. -/
theorem Text.value?_ofString (s : String) (b : Bindings) :
    (ofString s).value? b = (b.evaluate s).toOption := by
  unfold Text.value?
  rw [← ofString_append, read_ofString]
  unfold Bindings.evaluate Bindings.evaluateIn Reading.value?
  generalize FrontEnd.descent.read (s ++ ";") = reading
  obtain ⟨statements, diagnostics⟩ := reading
  simp only
  split
  · simp only [EStateM.run', EStateM.run]
    split <;> rename_i ran <;> simp only [ran] <;> rfl
  · rename_i other
    split
    · rename_i value
      exact absurd rfl (other value rfl)
    all_goals rfl

/-! ## Scanning and reading literals -/

namespace Segment

theorem cut_of_first {c : Char} {cs rest : List Char} {s : Segment} (found : first c cs = s)
    (same : s.text ++ rest = c :: cs) : cut (c :: cs) = s :: cut rest := by
  rw [cut, found, ← same, List.drop_left]

/-- Characters are taken up to where a text stops. -/
theorem takeWhile_of_stops {p : Char → Bool} {cs rest : List Char} (all : ∀ c ∈ cs, p c)
    (stops : ∀ c ∈ rest.head?, p c = false) : (cs ++ rest).takeWhile p = cs := by
  rw [List.takeWhile_append_of_pos all]
  cases rest with
  | nil => simp
  | cons c rest => rw [List.takeWhile_cons_of_neg (by simp [stops c rfl]), List.append_nil]

/-- A number is cut off in front of what does not go on with it. -/
theorem cut_number {digits rest : List Char} {x : Float} (shape : IsNumber digits)
    (value : Numeral.readFloat? (Text.ofChars digits) = some x)
    (stops : ∀ c ∈ rest.head?, isDigit c = false ∧ c ≠ '.') :
    cut (digits ++ rest) = ⟨.token .number (some (.number x)), digits⟩ :: cut rest := by
  obtain ⟨whole, fraction', nonempty, all, all', rfl⟩ := shape
  have value : numberValue whole fraction' = x :=
    Option.some.inj ((Numeral.readFloat?_numberText all all' nonempty).symm.trans value)
  obtain ⟨c, ds, rfl⟩ := List.exists_cons_of_ne_nil nonempty
  have others : ∀ d ∈ ds, isDigit d := fun d member => all d (List.mem_cons_of_mem _ member)
  have ends : ∀ c ∈ rest.head?, isDigit c = false := fun c first => (stops c first).1
  obtain ⟨cs, whole, taken, behind⟩ : ∃ cs, numberText (c :: ds) fraction' ++ rest = c :: cs ∧
      cs.takeWhile isDigit = ds ∧ fraction cs = fraction' := by
    by_cases none : fraction' = []
    · refine ⟨ds ++ rest, by simp [numberText, none], takeWhile_of_stops others ends, ?_⟩
      rw [fraction, List.dropWhile_append_of_pos others, none]
      cases rest with
      | nil => rfl
      | cons d rest =>
          rw [List.dropWhile_cons_of_neg (by simp [ends d rfl])]
          split
          · rename_i same
            exact absurd (List.cons.inj same).1 (stops d rfl).2
          · rfl
    · refine ⟨ds ++ '.' :: (fraction' ++ rest), by simp [numberText, none],
        takeWhile_of_stops others (by simp; decide), ?_⟩
      rw [fraction, List.dropWhile_append_of_pos others, List.dropWhile_cons_of_neg (by decide)]
      exact takeWhile_of_stops all' ends
  rw [whole]
  refine cut_of_first ?_ whole
  rw [first_digit (all c List.mem_cons_self), number, taken, behind, value]

/-- A string is cut off at its closing quote. -/
theorem cut_string {body : List Char} (inside : '"' ∉ body) (rest : List Char) :
    cut ('"' :: body ++ '"' :: rest) =
      ⟨.token .string (some (.text (Text.ofChars body))), '"' :: body ++ ['"']⟩ :: cut rest :=
  cut_of_first (string_of_closing inside rest) (by simp)

theorem cut_single {c : Char} {kind : TokenKind} (found : single? c = some kind) (rest : List Char) :
    cut (c :: rest) = ⟨.token kind none, [c]⟩ :: cut rest :=
  cut_of_first (first_single found rest) rfl

theorem cut_semicolon : cut [';'] = [⟨.token .semicolon none, [';']⟩] := by
  rw [cut_single rfl, cut]

/-- A word is cut off in front of what does not go on with it. -/
theorem cut_word {c : Char} {ds rest : List Char} (start : isNameStart c) (all : ∀ d ∈ ds, isNameChar d)
    (stops : ∀ d ∈ rest.head?, isNameChar d = false) :
    cut (c :: (ds ++ rest)) = word (c :: ds) :: cut rest := by
  refine cut_of_first ?_ (by rw [text_word]; rfl)
  rw [first_nameStart start, takeWhile_of_stops all stops]

end Segment

open LoxLang.Derivation in
/-- An expression that is no binary one is a statement with its semicolon. -/
theorem Derivation.Tree.exists_alone (u : Tree .unary) (s : OfKind .semicolon) :
    ∃ d : Declaration, d.yield = u.yield ++ [s.1] ∧ d.ast = .expression u.ast := by
  refine ⟨.expression (.expression (.level rfl (.level rfl (.level rfl (.level rfl u .done) .done) .done)
    .done)) s, ?_, rfl⟩
  simp [Declaration.yield, Tree.yield, Further.yield]

open LoxLang.Derivation in
/-- A text that is scanned as a short expression has the value of the expression. -/
theorem Text.value?_of_scan {t : Text} {u : Tree .unary} {s : OfKind .semicolon}
    (scanned : (t ++ ";").scan = ⟨u.yield ++ [s.1, Token.ending], []⟩)
    (short : u.yield.length ≤ 2) (b : Bindings) :
    t.value? b = (u.ast.eval evalLimit).run' ⟨b, []⟩ := by
  obtain ⟨d, yields, ast⟩ := u.exists_alone s
  let p : Program := [d]
  have tokens : p.yield = u.yield ++ [s.1] := (Program.yield_singleton d).trans yields
  have low : p.height ≤ Descent.ruleLimit := by
    have bound := d.height_le
    rw [yields, List.length_append, List.length_singleton] at bound
    show max d.height 0 ≤ 1000
    omega
  have inside : ∀ t ∈ p.yield, t.kind ≠ .endOfInput := by
    intro t member same
    have kind := p.kind_mem t member
    rw [same] at kind
    exact absurd kind (by decide)
  have body : Descent.body (p.yield ++ [Token.ending]) = p.yield := Descent.body_append inside rfl
  have reads : (t ++ ";").read = ⟨[.expression u.ast], []⟩ := by
    rw [read, scanned]
    simp only
    rw [← List.singleton_append, ← List.append_assoc, ← tokens, body, Descent.read_yield low, ← ast]
    rfl
  rw [value?, reads]
  rfl

theorem Text.value?_of_atom {t : Text} {token semicolon : Token} {v : Value}
    (scanned : (t ++ ";").scan = ⟨[token, semicolon, Token.ending], []⟩)
    (stands : Atom token (.literal v)) (ends : semicolon.kind = .semicolon) (b : Bindings) :
    t.value? b = some v :=
  Text.value?_of_scan (u := .primary (.atom token stands)) (s := ⟨semicolon, ends⟩) scanned
    (Nat.le_succ 1) b

/-! ## The printed form of a value -/

/-- A plain form is a number of the language, and read as the same float. -/
theorem Numeral.Form.Plain.isNumber {f : Form} (plain : f.Plain) :
    IsNumber f.chars ∧ readFloat? (Text.ofChars f.chars) = some f.float := by
  have text : f.chars = numberText f.whole f.fraction := by
    simp only [chars, fractionChars, exponentChars, plain.exponent, numberText, List.append_nil]
    split <;> simp
  have value : f.float = numberValue f.whole f.fraction := by
    rw [float, power, plain.exponent]
    rfl
  rw [text, value]
  exact ⟨⟨_, _, plain.nonempty, plain.whole, plain.fraction, rfl⟩,
    readFloat?_numberText plain.whole plain.fraction plain.nonempty⟩

/-- The text of a finite number is a number of the language behind its sign. -/
theorem Number.plain_digits {x : Float} (number : x.isNaN = false) (bounded : x.isInf = false) :
    ∃ digits, IsNumber digits ∧ Numeral.readFloat? (Text.ofChars digits) = some x.abs ∧
      (plain x).toList = (if floatSign x then ['-'] else []) ++ digits := by
  obtain ⟨f, isPlain, value, text⟩ := Numeral.form_of_plain number bounded
  obtain ⟨shape, reads⟩ := isPlain.isNumber
  exact ⟨f.chars, shape, value ▸ reads, text⟩

/-- Characters with a semicolon behind them are scanned as they are cut. -/
theorem Text.scan_closed {cs : List Char} {segments : List Segment}
    (cuts : Segment.cut (cs ++ [';']) = segments) :
    (ofChars cs ++ ";").scan =
      ⟨Segment.tokens 1 segments ++ [Token.ending], Segment.faults 1 segments⟩ := by
  have whole : ofChars cs ++ ";" = ofString (String.ofList (cs ++ [';'])) := by
    simp [ofString, ofChars_append]
  rw [whole, scan_ofString, LoxLang.scan, String.toList_ofList, cuts]

namespace Value

/-- The values that a literal can write: finite numbers, strings without double quotes, booleans and
nil. -/
def HasLiteral : Value → Prop
  | .number x => x.isNaN = false ∧ x.isInf = false
  | .string s => .char '"' ∉ s
  | .boolean _ | .nil => True

section ReadBack

variable (b : Bindings)

open LoxLang.Derivation

theorem value?_number {x : Float} (number : x.isNaN = false) (bounded : x.isInf = false) :
    (Text.ofString (Number.plain x)).value? b = some (.number x) := by
  obtain ⟨digits, shape, reads, text⟩ := Number.plain_digits number bounded
  have cuts : Segment.cut (digits ++ [';']) =
      [⟨.token .number (some (.number x.abs)), digits⟩, ⟨.token .semicolon none, [';']⟩] := by
    rw [Segment.cut_number shape reads (by simp; decide), Segment.cut_semicolon]
  let line : ℕ := 1 + digits.count '\n'
  let magnitude : Token := ⟨.number, Text.ofChars digits, some (.number x.abs), line⟩
  let semicolon : Token := ⟨.semicolon, ";", none, line⟩
  have signed := Rounding.signed_abs number
  rw [Text.ofString, text]
  cases sign : floatSign x with
  | false =>
      have scanned : (Text.ofChars digits ++ ";").scan =
          ⟨[magnitude, semicolon, Token.ending], []⟩ := by
        rw [Text.scan_closed cuts]
        rfl
      rw [sign, if_neg Bool.false_ne_true] at signed
      rw [← signed]
      exact Text.value?_of_atom scanned (.number rfl) rfl b
  | true =>
      have behind : Segment.cut (('-' :: digits) ++ [';']) =
          ⟨.token .minus none, ['-']⟩ :: Segment.cut (digits ++ [';']) := Segment.cut_single rfl _
      let minus : Token := ⟨.minus, "-", none, (1 : ℕ)⟩
      have scanned : (Text.ofChars ('-' :: digits) ++ ";").scan =
          ⟨[minus, magnitude, semicolon, Token.ending], []⟩ := by
        rw [Text.scan_closed behind, cuts]
        rfl
      let negated : Tree .unary := .unary ⟨minus, by decide⟩ (.primary (.atom magnitude (.number rfl)))
      have value := Text.value?_of_scan (u := negated) (s := ⟨semicolon, rfl⟩) scanned (Nat.le_refl 2) b
      have evaluated : (negated.ast.eval evalLimit).run' ⟨b, []⟩ = some (.number (-x.abs)) := rfl
      rw [sign, if_pos rfl] at signed
      rwa [evaluated, signed] at value

theorem value?_string {s : Text} (inside : .char '"' ∉ s) :
    ("\"" ++ s ++ "\"" : Text).value? b = some (.string s) := by
  have outside : '"' ∉ s.chars := by
    intro member
    obtain ⟨point, member, same⟩ := List.mem_map.mp member
    cases point with
    | char c =>
        rw [show c = '"' from same] at member
        exact inside member
    | surrogate offset => exact absurd (show '\ufffd' = '"' from same) (by decide)
  let quoted : Text := "\"" ++ s ++ "\""
  have cuts : Segment.cut (quoted ++ ";" : Text).chars =
      [⟨.token .string (some (.text (Text.ofChars s.chars))), '"' :: s.chars ++ ['"']⟩,
        ⟨.token .semicolon none, [';']⟩] := by
    have whole : (quoted ++ ";" : Text).chars = '"' :: s.chars ++ '"' :: [';'] := by
      simp [quoted, Text.chars_append, Text.ofString]
    rw [whole, Segment.cut_string outside, Segment.cut_semicolon]
  let line : ℕ := 1 + ('"' :: s.chars ++ ['"']).count '\n'
  let token : Token := ⟨.string, quoted, some (.text s), line⟩
  let semicolon : Token := ⟨.semicolon, ";", none, line⟩
  have scanned : (quoted ++ ";" : Text).scan = ⟨[token, semicolon, Token.ending], []⟩ := by
    have length : quoted.length = ('"' :: s.chars ++ ['"']).length := by
      simp [quoted, Text.ofString, Text.ofChars, Text.length_chars]
    have between : quoted.tail.dropLast = s := by simp [quoted, Text.ofString, Text.ofChars]
    simp only [Text.scan, cuts]
    rw [Segment.tokensAs_cons _ _ _ length]
    simp only [Segment.tokenAs?, Segment.token?, Option.map_some, if_true, between]
    rfl
  exact Text.value?_of_atom scanned (.string rfl) rfl b

theorem value?_word {c : Char} {ds : List Char} (start : isNameStart c) (all : ∀ d ∈ ds, isNameChar d)
    {kind : TokenKind} (reserved : TokenKind.keyword? (String.ofList (c :: ds)) = some kind)
    {v : Value} (stands : ∀ t : Token, t.kind = kind → Atom t (.literal v)) :
    (Text.ofChars (c :: ds)).value? b = some v := by
  have cuts : Segment.cut (c :: ds ++ [';']) =
      [⟨.token kind none, c :: ds⟩, ⟨.token .semicolon none, [';']⟩] := by
    rw [List.cons_append, Segment.cut_word start all (by simp; decide), Segment.cut_semicolon, Segment.word,
      reserved]
  exact Text.value?_of_atom (Text.scan_closed cuts) (stands _ rfl) rfl b

/-- The printed form of a value has that value. -/
theorem value?_printValue {v : Value} (literal : v.HasLiteral) :
    (Node.printValue v).value? b = some v := by
  cases v with
  | number x => exact value?_number b literal.1 literal.2
  | string s => exact value?_string b literal
  | boolean truth =>
      cases truth with
      | true =>
          have letters : ∀ d ∈ ['r', 'u', 'e'], isNameChar d := by simp [isNameChar, isNameStart]
          exact value?_word b rfl letters rfl fun _ => .yes
      | false =>
          have letters : ∀ d ∈ ['a', 'l', 's', 'e'], isNameChar d := by simp [isNameChar, isNameStart]
          exact value?_word b rfl letters rfl fun _ => .no
  | nil =>
      have letters : ∀ d ∈ ['i', 'l'], isNameChar d := by simp [isNameChar, isNameStart]
      exact value?_word b rfl letters rfl fun _ => .nothing

end ReadBack

/-- **Printed literals read back as the same value.**  Under any bindings the printed form of a finite
number, of a string without double quotes, of a boolean or of nil has that value, the sign of zero
included, and evaluation returns it for the source that the printed form is.  The form of a number is
an optional sign and digits, with at most one point, which has digits on both sides. -/
theorem printed_literal_reads_back (v : Value) (b : Bindings) (literal : v.HasLiteral) :
    ∃ printed : Text, (Node.literal v).toText = .ok printed ∧ printed.value? b = some v ∧
      (∀ source : String, Text.ofString source = printed → b.evaluate source = .ok v) ∧
      ∀ x, v = .number x → ∃ digits, IsNumber digits ∧
        printed = Text.ofChars ((if floatSign x then ['-'] else []) ++ digits) := by
  have value := value?_printValue b literal
  refine ⟨Node.printValue v, rfl, value, ?_, ?_⟩
  · intro source same
    rw [← same, Text.value?_ofString] at value
    cases evaluated : b.evaluate source with
    | error failure =>
        rw [evaluated] at value
        cases value
    | ok w =>
        rw [evaluated] at value
        exact congrArg Except.ok (Option.some.inj value)
  · rintro x rfl
    obtain ⟨digits, shape, -, text⟩ := Number.plain_digits literal.1 literal.2
    exact ⟨digits, shape, congrArg Text.ofChars text⟩

/-- Negative zero is printed with its sign, and that text has negative zero as its value. -/
theorem printed_negative_zero_reads_back :
    (number (-0.0)).HasLiteral ∧ (-0.0 : Float) ≠ 0.0 ∧
      Bindings.empty.evaluate "-0" = .ok (.number (-0.0)) := by
  have literal : (number (-0.0)).HasLiteral := ⟨by decide +kernel, by decide +kernel⟩
  refine ⟨literal, by decide +kernel, ?_⟩
  obtain ⟨printed, prints, -, evaluates, -⟩ := printed_literal_reads_back (.number (-0.0)) .empty literal
  have text : (Node.literal (.number (-0.0))).toText = .ok (Text.ofString "-0") := by decide +kernel
  exact evaluates "-0" (Except.ok.inj (text.symm.trans prints))

end Value

end LoxLang
