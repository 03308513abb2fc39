/-
# LoxLang.Proofs.PrintedForm -- the printed form determines the program

A printed statement is an S-expression: a word, a string between quotes, or a head with
one or two arguments in parentheses.  Nothing is escaped, but nothing has to be.  A word
ends in front of the first delimiter, a string at the next quote, and a head without a
third part at its parenthesis, so an S-expression can be split off the front of whatever
stands behind it (`Sexp.chars_unique`).

What a tree keeps apart from its lines can be told from its S-expression.  The lexeme of
an operator gives its kind, and `group` is a name and no operator; a word is a number, a
keyword or a name, and no two of these at once (`Node.Spells.unique`).
-/
import LoxLang.Proofs.Layout
import LoxLang.Proofs.PrintedLiterals

namespace LoxLang

set_option autoImplicit false

open Lexeme LoxLang.Derivation

theorem Text.ofChars_injective : Function.Injective Text.ofChars :=
  List.map_injective_iff.mpr fun _ _ => CodePoint.char.inj

/-! ## S-expressions -/

namespace Sexp

/-- The characters in front of which a word ends. -/
def delimiters : List Char := [' ', '\n', '(', ')', '"']

/-- Characters that can stand as one word. -/
structure Bare (cs : List Char) : Prop where
  nonempty : cs ≠ []
  inside : ∀ c ∈ cs, c ∉ delimiters

/-- What may stand behind a word. -/
def Ends (rest : List Char) : Prop := ∀ c ∈ rest.head?, c ∈ delimiters

end Sexp

inductive Sexp where
  | word (cs : List Char) (bare : Sexp.Bare cs)
  | string (body : List Char) (closed : '"' ∉ body)
  | one (head : List Char) (bare : Sexp.Bare head) (argument : Sexp)
  | two (head : List Char) (bare : Sexp.Bare head) (left right : Sexp)

namespace Sexp

def chars : Sexp → List Char
  | .word cs _ => cs
  | .string body _ => '"' :: (body ++ ['"'])
  | .one head _ argument => '(' :: (head ++ ' ' :: (argument.chars ++ [')']))
  | .two head _ left right => '(' :: (head ++ ' ' :: (left.chars ++ ' ' :: (right.chars ++ [')'])))

section Text

variable (head : List Char) (bare : Bare head) (f g : Sexp)

theorem ofChars_one : Text.ofChars (one head bare f).chars =
    "(" ++ Text.ofChars head ++ " " ++ Text.ofChars f.chars ++ ")" := by
  simp [chars, Text.ofString, Text.ofChars]

theorem ofChars_two : Text.ofChars (two head bare f g).chars =
    "(" ++ Text.ofChars head ++ " " ++ Text.ofChars f.chars ++ " " ++ Text.ofChars g.chars ++ ")" := by
  simp [chars, Text.ofString, Text.ofChars]

end Text

theorem ends_cons {c : Char} (member : c ∈ delimiters) (rest : List Char) : Ends (c :: rest) := by
  rintro d ⟨⟩
  exact member

/-- Two lists that stop where `p` fails can be split off in one way only. -/
theorem split_unique (p : Char → Bool) {xs ys r s : List Char} (all : ∀ c ∈ xs, p c)
    (all' : ∀ c ∈ ys, p c) (stops : ∀ c ∈ r.head?, p c = false) (stops' : ∀ c ∈ s.head?, p c = false)
    (same : xs ++ r = ys ++ s) : xs = ys ∧ r = s := by
  obtain rfl : xs = ys := by
    rw [← Segment.takeWhile_of_stops all stops, same, Segment.takeWhile_of_stops all' stops']
  exact ⟨rfl, List.append_cancel_left same⟩

section Unique

variable {cs ds r s : List Char}

theorem bare_unique (bare : Bare cs) (bare' : Bare ds) (ends : Ends r) (ends' : Ends s)
    (same : cs ++ r = ds ++ s) : cs = ds ∧ r = s :=
  split_unique (fun c => decide (c ∉ delimiters)) (by simpa using bare.inside)
    (by simpa using bare'.inside) (by simpa [Ends] using ends) (by simpa [Ends] using ends') same

theorem head_unique (bare : Bare cs) (bare' : Bare ds)
    (same : '(' :: (cs ++ ' ' :: r) = '(' :: (ds ++ ' ' :: s)) : cs = ds ∧ r = s := by
  obtain ⟨heads, rest⟩ := bare_unique bare bare' (ends_cons (by decide) r) (ends_cons (by decide) s)
    (List.cons.inj same).2
  exact ⟨heads, (List.cons.inj rest).2⟩

theorem body_unique (closed : '"' ∉ cs) (closed' : '"' ∉ ds) (same : cs ++ '"' :: r = ds ++ '"' :: s) :
    cs = ds ∧ r = s := by
  obtain ⟨bodies, rest⟩ := split_unique (· != '"') (Segment.ne_of_not_mem closed)
    (Segment.ne_of_not_mem closed') (by simp) (by simp) same
  exact ⟨bodies, (List.cons.inj rest).2⟩

/-- A word does not start with a delimiter. -/
theorem Bare.ne_cons (bare : Bare cs) {c : Char} (member : c ∈ delimiters) : cs ++ r ≠ c :: s := by
  obtain ⟨d, ds, rfl⟩ := List.exists_cons_of_ne_nil bare.nonempty
  intro same
  rw [← (List.cons.inj same).1] at member
  exact bare.inside d List.mem_cons_self member

end Unique

/-- **An S-expression can be split off in one way only.** -/
theorem chars_unique (f g : Sexp) {r s : List Char} (ends : Ends r) (ends' : Ends s)
    (same : f.chars ++ r = g.chars ++ s) : f = g ∧ r = s := by
  induction f generalizing g r s with
  | word cs bare =>
      cases g with
      | word ds bare' =>
          obtain ⟨rfl, rest⟩ := bare_unique bare bare' ends ends' same
          exact ⟨rfl, rest⟩
      | string => exact absurd same (bare.ne_cons (by decide))
      | one => exact absurd same (bare.ne_cons (by decide))
      | two => exact absurd same (bare.ne_cons (by decide))
  | string body closed =>
      cases g with
      | word ds bare' => exact absurd same.symm (bare'.ne_cons (by decide))
      | string body' closed' =>
          simp only [chars, List.cons_append, List.append_assoc, List.nil_append] at same
          obtain ⟨rfl, rest⟩ := body_unique closed closed' (List.cons.inj same).2
          exact ⟨rfl, rest⟩
      | one => exact absurd (List.cons.inj same).1 (by decide)
      | two => exact absurd (List.cons.inj same).1 (by decide)
  | one head bare argument ih =>
      cases g with
      | word ds bare' => exact absurd same.symm (bare'.ne_cons (by decide))
      | string => exact absurd (List.cons.inj same).1 (by decide)
      | one head' bare' argument' =>
          simp only [chars, List.cons_append, List.append_assoc, List.nil_append] at same
          obtain ⟨rfl, behind⟩ := head_unique bare bare' same
          obtain ⟨rfl, rest⟩ := ih argument' (ends_cons (by decide) _) (ends_cons (by decide) _) behind
          exact ⟨rfl, (List.cons.inj rest).2⟩
      | two head' bare' left' right' =>
          -- The argument is the left one, and then a parenthesis stands where a blank does.
          simp only [chars, List.cons_append, List.append_assoc, List.nil_append] at same
          obtain ⟨rfl, behind⟩ := head_unique bare bare' same
          obtain ⟨-, rest⟩ := ih left' (ends_cons (by decide) _) (ends_cons (by decide) _) behind
          exact absurd (List.cons.inj rest).1 (by decide)
  | two head bare left right ihLeft ihRight =>
      cases g with
      | word ds bare' => exact absurd same.symm (bare'.ne_cons (by decide))
      | string => exact absurd (List.cons.inj same).1 (by decide)
      | one head' bare' argument' =>
          simp only [chars, List.cons_append, List.append_assoc, List.nil_append] at same
          obtain ⟨rfl, behind⟩ := head_unique bare bare' same
          obtain ⟨-, rest⟩ := ihLeft argument' (ends_cons (by decide) _) (ends_cons (by decide) _) behind
          exact absurd (List.cons.inj rest).1 (by decide)
      | two head' bare' left' right' =>
          simp only [chars, List.cons_append, List.append_assoc, List.nil_append] at same
          obtain ⟨rfl, behind⟩ := head_unique bare bare' same
          obtain ⟨rfl, between⟩ := ihLeft left' (ends_cons (by decide) _) (ends_cons (by decide) _) behind
          obtain ⟨rfl, rest⟩ := ihRight right' (ends_cons (by decide) _) (ends_cons (by decide) _)
            (List.cons.inj between).2
          exact ⟨rfl, (List.cons.inj rest).2⟩

/-- S-expressions behind a first one, each on a line of its own. -/
def further (fs : List Sexp) : List Char := fs.flatMap fun f => '\n' :: f.chars

theorem ends_further (fs : List Sexp) : Ends (further fs) := by
  cases fs with
  | nil =>
      rintro c ⟨⟩
  | cons f fs => exact ends_cons (by decide) _

theorem further_injective {fs gs : List Sexp} (same : further fs = further gs) : fs = gs := by
  induction fs generalizing gs with
  | nil =>
      cases gs with
      | nil => rfl
      | cons g gs => cases same
  | cons f fs ih =>
      cases gs with
      | nil => cases same
      | cons g gs =>
          obtain ⟨rfl, rest⟩ := chars_unique f g (ends_further fs) (ends_further gs) (List.cons.inj same).2
          rw [ih rest]

theorem chars_ne_nil (f : Sexp) : f.chars ≠ [] := by
  cases f with
  | word cs bare => exact bare.nonempty
  | _ => exact List.cons_ne_nil _ _

/-- S-expressions with a newline between each two. -/
def lines : List Sexp → List Char
  | [] => []
  | f :: fs => f.chars ++ further fs

theorem lines_injective {fs gs : List Sexp} (same : lines fs = lines gs) : fs = gs := by
  cases fs with
  | nil =>
      cases gs with
      | nil => rfl
      | cons g gs => exact absurd (List.append_eq_nil_iff.mp same.symm).1 g.chars_ne_nil
  | cons f fs =>
      cases gs with
      | nil => exact absurd (List.append_eq_nil_iff.mp same).1 f.chars_ne_nil
      | cons g gs =>
          obtain ⟨rfl, rest⟩ := chars_unique f g (ends_further fs) (ends_further gs) same
          rw [further_injective rest]

theorem intercalate_chars (fs : List Sexp) :
    Text.intercalate "\n" (fs.map fun f => Text.ofChars f.chars) = Text.ofChars (lines fs) := by
  have behind (fs : List Sexp) (front : Text) :
      List.intercalate (Text.ofString "\n") (front :: fs.map fun f => Text.ofChars f.chars) =
        front ++ Text.ofChars (further fs) := by
    induction fs generalizing front with
    | nil => simp [further, Text.ofChars]
    | cons f fs ih =>
        rw [List.map_cons, List.intercalate_cons_cons, ih]
        simp [further, Text.ofString, Text.ofChars]
  cases fs with
  | nil => rfl
  | cons f fs =>
      rw [List.map_cons, Text.intercalate, behind, lines, Text.ofChars_append]

/-! ## Words -/

theorem not_delimiter_of_isDigit {c : Char} (digit : isDigit c) : c ∉ delimiters := by
  intro member
  have none : ∀ d ∈ delimiters, isDigit d = false := by simp [delimiters, isDigit]
  rw [none c member] at digit
  cases digit

theorem bare_of_number {cs : List Char} (shape : IsNumber cs) : Bare cs := by
  obtain ⟨whole, fraction, nonempty, digits, digits', rfl⟩ := shape
  constructor
  · unfold numberText
    split
    · exact nonempty
    · simp
  · intro c member
    unfold numberText at member
    split at member
    · exact not_delimiter_of_isDigit (digits c member)
    · rcases List.mem_append.mp member with front | behind
      · exact not_delimiter_of_isDigit (digits c front)
      · rcases List.mem_cons.mp behind with rfl | behind
        · decide
        · exact not_delimiter_of_isDigit (digits' c behind)

theorem bare_of_letters {c : Char} {cs : List Char} (all : ∀ d ∈ c :: cs, isNameChar d) :
    Bare (c :: cs) := by
  have none : ∀ d ∈ delimiters, isNameChar d = false := by
    simp [delimiters, isNameChar, isNameStart, isDigit]
  refine ⟨List.cons_ne_nil _ _, fun d member delimits => ?_⟩
  have inside := all d member
  rw [none d delimits] at inside
  cases inside

theorem bare_of_word {cs : List Char} (shape : IsWord cs) : Bare cs := by
  obtain ⟨c, cs, rfl, start, all⟩ := shape
  refine bare_of_letters (List.forall_mem_cons.mpr ⟨?_, all⟩)
  rw [isNameChar, start, Bool.true_or]

/-- A lexeme is a word if it is no parenthesis and no string. -/
theorem bare_of_belongs {cs : List Char} {kind : TokenKind} {literal : Option Literal}
    (belongs : Belongs cs (.token kind literal)) (other : kind ∉ [.leftParen, .rightParen, .string]) :
    Bare cs := by
  cases belongs with
  | mark listed =>
      -- The marks that hold a delimiter are the parentheses.
      have each : ∀ entry ∈ marks, entry.2 ∉ [.leftParen, .rightParen, .string] →
          entry.1 ≠ [] ∧ ∀ c ∈ entry.1, c ∉ delimiters := by simp [marks, delimiters]
      obtain ⟨nonempty, inside⟩ := each _ listed other
      exact ⟨nonempty, inside⟩
  | string inside => exact absurd (by simp) other
  | number shape value => exact bare_of_number shape
  | keyword shape listed => exact bare_of_word shape
  | name shape free => exact bare_of_word shape

theorem bare_of_plain {x : Float} (finite : (Value.number x).HasLiteral) :
    Bare (Number.plain x).toList := by
  obtain ⟨digits, shape, -, text⟩ := Number.plain_digits finite.1 finite.2
  have bare := bare_of_number shape
  rw [text]
  refine ⟨List.append_ne_nil_of_right_ne_nil _ bare.nonempty, fun c member => ?_⟩
  rcases List.mem_append.mp member with sign | behind
  · split at sign
    · rw [List.mem_singleton.mp sign]
      decide
    · cases sign
  · exact bare.inside c behind

/-- A number is no word of letters. -/
theorem not_isWord_plain {x : Float} (finite : (Value.number x).HasLiteral) :
    ¬ IsWord (Number.plain x).toList := by
  obtain ⟨digits, ⟨whole, fraction, nonempty, all, -, rfl⟩, -, text⟩ :=
    Number.plain_digits finite.1 finite.2
  rintro ⟨c, cs, same, start, -⟩
  rw [text] at same
  split at same
  · rw [← (List.cons.inj same).1] at start
    exact absurd start (by decide)
  · obtain ⟨d, ds, rfl⟩ := List.exists_cons_of_ne_nil nonempty
    have digit : isDigit c := by
      unfold numberText at same
      split at same <;> exact (List.cons.inj same).1 ▸ all d List.mem_cons_self
    rw [Stream.not_isNameStart_of_isDigit digit] at start
    cases start

/-- Finite numbers with one text are the same. -/
theorem plain_injective {x y : Float} (finite : (Value.number x).HasLiteral)
    (finite' : (Value.number y).HasLiteral) (same : (Number.plain x).toList = (Number.plain y).toList) :
    x = y := by
  have reads := Value.value?_number .empty finite.1 finite.2
  rw [Text.ofString, same] at reads
  have reads' := Value.value?_number .empty finite'.1 finite'.2
  rw [Text.ofString, reads] at reads'
  exact Value.number.inj (Option.some.inj reads')

end Sexp

/-! ## Trees and their S-expressions -/

theorem Lexeme.Belongs.isWord_of_name {text : List Char} {literal : Option Literal}
    (belongs : Belongs text (.token .identifier literal)) : IsWord text := by
  have carried := (Token.written_of_belongs belongs 0).name rfl
  cases belongs with
  | name shape free => exact shape
  | keyword shape listed => exact shape
  | _ => cases carried

namespace Token

/-- A token whose lexeme is of its class. -/
structure Lexed (t : Token) (cs : List Char) : Prop where
  lexeme : t.lexeme = Text.ofChars cs
  belongs : Belongs cs (.token t.kind t.literal)

/-- A lexeme determines its token up to the line. -/
theorem Lexed.unique {t u : Token} {cs : List Char} (lexed : t.Lexed cs) (lexed' : u.Lexed cs) :
    t.mapLine (fun _ => 0) = u.mapLine fun _ => 0 := by
  obtain ⟨kind, literal⟩ := SegmentKind.token.inj (Segment.belongs_unique lexed.belongs lexed'.belongs)
  have lexeme := lexed.lexeme.trans lexed'.lexeme.symm
  unfold mapLine
  rw [kind, literal, lexeme]

end Token

theorem FrontEnd.lexed_of_read (source : String) :
    ∀ s ∈ (FrontEnd.descent.read source).statements, s.IsStatement fun t => ∃ cs, t.Lexed cs := by
  have lexed (line : ℕ) {segments : List Segment} (cuts : Segment.Cuts segments) :
      ∀ t ∈ Segment.tokens line segments, ∃ cs, t.Lexed cs := by
    induction segments generalizing line with
    | nil =>
        intro t member
        cases member
    | cons s rest ih =>
        obtain ⟨heads, further⟩ := Segment.cuts_cons.mp cuts
        intro t member
        rcases List.mem_append.mp member with first | later
        · obtain ⟨lexeme, belongs, -⟩ := Segment.belongs_of_token? heads (Option.mem_toList.mp first)
          exact ⟨s.text, lexeme, belongs⟩
        · exact ih _ further t later
  intro s member
  exact (isStatement_of_read .descent source s member).mono (lexed 1 (Segment.cuts_cut _))

namespace Node

/-- A tree without its lines. -/
def unlined (node : Node) : Node := node.mapLine fun _ => 0

theorem unlined_of_atom {t u : Token} {n m : Node} (stands : Atom t n) (stands' : Atom u m)
    (same : t.mapLine (fun _ => 0) = u.mapLine fun _ => 0) : n.unlined = m.unlined := by
  have first := Token.atom?_mapLine (fun _ => 0) t
  have second := Token.atom?_mapLine (fun _ => 0) u
  rw [Token.atom?_eq_some_iff.mpr stands] at first
  rw [Token.atom?_eq_some_iff.mpr stands', ← same, first] at second
  exact Option.some.inj second

/-- The S-expression of an expression. -/
inductive Spells : Node → Sexp → Prop where
  | number {x : Float} {cs : List Char} {bare : Sexp.Bare cs} (finite : (Value.number x).HasLiteral)
      (text : (Number.plain x).toList = cs) : Spells (.literal (.number x)) (.word cs bare)
  | word {t : Token} {cs : List Char} {node : Node} {bare : Sexp.Bare cs} (shape : IsWord cs)
      (lexed : t.Lexed cs) (stands : Atom t node) (text : node.render = .ok (Text.ofChars cs)) :
      Spells node (.word cs bare)
  | string {body : List Char} {closed : '"' ∉ body} :
      Spells (.literal (.string (Text.ofChars body))) (.string body closed)
  | grouping {inner : Node} {f : Sexp} {head : List Char} {bare : Sexp.Bare head}
      (word : head = ['g', 'r', 'o', 'u', 'p']) (spells : Spells inner f) :
      Spells (.grouping inner) (.one head bare f)
  | unary {operator : Token} {operand : Node} {f : Sexp} {head : List Char} {bare : Sexp.Bare head}
      (lexed : operator.Lexed head) (member : operator.kind ∈ Rule.unary.operators)
      (spells : Spells operand f) : Spells (.unary operator operand) (.one head bare f)
  | binary {operator : Token} {left right : Node} {f g : Sexp} {head : List Char}
      {bare : Sexp.Bare head} (lexed : operator.Lexed head) (first : Spells left f)
      (second : Spells right g) : Spells (.binary left operator right) (.two head bare f g)

/-- The S-expression of a statement. -/
inductive SpellsStatement : Node → Sexp → Prop where
  | expression {value : Node} {f : Sexp} {head : List Char} {bare : Sexp.Bare head}
      (word : head = ['e', 'x', 'p', 'r']) (spells : Spells value f) :
      SpellsStatement (.expression value) (.one head bare f)
  | print {value : Node} {f : Sexp} {head : List Char} {bare : Sexp.Bare head}
      (word : head = ['p', 'r', 'i', 'n', 't']) (spells : Spells value f) :
      SpellsStatement (.print value) (.one head bare f)
  | bare {name head : List Char} {line : Int} {bare : Sexp.Bare head} {nameBare : Sexp.Bare name}
      (word : head = ['v', 'a', 'r']) :
      SpellsStatement (.declaration (Text.ofChars name) .missing line)
        (.one head bare (.word name nameBare))
  | initialized {name head : List Char} {line : Int} {bare : Sexp.Bare head}
      {nameBare : Sexp.Bare name} {value : Node} {f : Sexp} (word : head = ['v', 'a', 'r'])
      (present : value ≠ .missing) (spells : Spells value f) :
      SpellsStatement (.declaration (Text.ofChars name) value line)
        (.two head bare (.word name nameBare) f)

section Spelling

variable {n m : Node} {f g : Sexp}

theorem render_declaration (name : Text) {value : Node} (line : Int) (present : value ≠ .missing) :
    (Node.declaration name value line).render =
      (fun text => "(var " ++ name ++ " " ++ text ++ ")") <$> value.render := by
  cases value <;> first | rfl | exact absurd rfl present

theorem Spells.render_eq (spells : n.Spells f) : n.render = .ok (Text.ofChars f.chars) := by
  induction spells with
  | number finite text =>
      subst text
      rfl
  | word shape lexed stands text => exact text
  | @string body closed =>
      have text : printValue (.string (Text.ofChars body)) = Text.ofChars (Sexp.string body closed).chars := by
        simp [printValue, Sexp.chars, Text.ofString, Text.ofChars]
      rw [Node.render, text]
      rfl
  | grouping word spells ih =>
      subst word
      rw [Node.render, ih, Sexp.ofChars_one]
      rfl
  | unary lexed member spells ih =>
      rw [Node.render, ih, lexed.lexeme, Sexp.ofChars_one]
      rfl
  | binary lexed first second ihLeft ihRight =>
      rw [Node.render, ihLeft, ihRight, lexed.lexeme, Sexp.ofChars_two]
      rfl

theorem SpellsStatement.render_eq (spells : n.SpellsStatement f) :
    n.render = .ok (Text.ofChars f.chars) := by
  cases spells with
  | expression word spells =>
      subst word
      rw [Node.render, spells.render_eq, Sexp.ofChars_one]
      rfl
  | print word spells =>
      subst word
      rw [Node.render, spells.render_eq, Sexp.ofChars_one]
      rfl
  | bare word =>
      subst word
      rw [Node.render, Sexp.ofChars_one]
      rfl
  | initialized word present spells =>
      subst word
      rw [render_declaration _ _ present, spells.render_eq, Sexp.ofChars_two]
      rfl

/-- The word for groups is a name, and so no operator. -/
theorem belongs_group : Belongs ['g', 'r', 'o', 'u', 'p']
    (.token .identifier (some (.text (Text.ofChars ['g', 'r', 'o', 'u', 'p'])))) := by
  refine .name ⟨'g', _, rfl, rfl, ?_⟩ (keyword?_eq_none_iff.mp rfl)
  simp [isNameChar, isNameStart]

theorem not_group {operator : Token} (lexed : operator.Lexed ['g', 'r', 'o', 'u', 'p']) :
    operator.kind ∉ Rule.unary.operators := by
  have kind := (SegmentKind.token.inj (Segment.belongs_unique lexed.belongs belongs_group)).1
  rw [kind]
  decide

/-- **The S-expression of an expression determines it up to its lines.** -/
theorem Spells.unique (spells : n.Spells f) (spells' : m.Spells f) : n.unlined = m.unlined := by
  induction spells generalizing m with
  | number finite text =>
      cases spells' with
      | number finite' text' => rw [Sexp.plain_injective finite finite' (text.trans text'.symm)]
      | word shape => exact absurd (text ▸ shape) (Sexp.not_isWord_plain finite)
  | word shape lexed stands text =>
      cases spells' with
      | number finite' text' => exact absurd (text' ▸ shape) (Sexp.not_isWord_plain finite')
      | word shape' lexed' stands' text' => exact unlined_of_atom stands stands' (lexed.unique lexed')
  | string =>
      cases spells' with
      | string => rfl
  | grouping word spells ih =>
      cases spells' with
      | grouping word' spells' => exact congrArg Node.grouping (ih spells')
      | unary lexed' member' spells' =>
          subst word
          exact absurd member' (not_group lexed')
  | unary lexed member spells ih =>
      cases spells' with
      | grouping word' spells' =>
          subst word'
          exact absurd member (not_group lexed)
      | unary lexed' member' spells' => exact congrArg₂ Node.unary (lexed.unique lexed') (ih spells')
  | binary lexed first second ihLeft ihRight =>
      cases spells' with
      | binary lexed' first' second' =>
          show Node.binary _ _ _ = Node.binary _ _ _
          rw [lexed.unique lexed']
          exact congrArg₂ (Node.binary · _) (ihLeft first') (ihRight second')

theorem SpellsStatement.unique (spells : n.SpellsStatement f) (spells' : m.SpellsStatement f) :
    n.unlined = m.unlined := by
  cases spells with
  | expression word spells =>
      subst word
      cases spells' with
      | expression word' spells' => exact congrArg Node.expression (spells.unique spells')
      | print word' spells' => exact absurd word' (by decide)
      | bare word' => exact absurd word' (by decide)
  | print word spells =>
      subst word
      cases spells' with
      | expression word' spells' => exact absurd word' (by decide)
      | print word' spells' => exact congrArg Node.print (spells.unique spells')
      | bare word' => exact absurd word' (by decide)
  | bare word =>
      subst word
      cases spells' with
      | expression word' spells' => exact absurd word' (by decide)
      | print word' spells' => exact absurd word' (by decide)
      | bare word' => rfl
  | initialized word present spells =>
      cases spells' with
      | initialized word' present' spells' =>
          exact congrArg (Node.declaration _ · 0) (spells.unique spells')

/-! ## Trees from sources -/

mutual

/-- Whether every number in a tree is finite. -/
def isFinite : Node → Bool
  | .literal (.number x) => !x.isNaN && !x.isInf
  | .binary left _ right => left.isFinite && right.isFinite
  | .unary _ operand => operand.isFinite
  | .grouping inner => inner.isFinite
  | .expression value => value.isFinite
  | .print value => value.isFinite
  | .declaration _ initializer _ => initializer.isFinite
  | .block statements => allFinite statements
  | .literal (.string _) | .literal (.boolean _) | .literal .nil | .hollow _ | .reference .. | .missing =>
      true

def allFinite : List Node → Bool
  | [] => true
  | node :: rest => node.isFinite && allFinite rest

end

theorem spells_keyword {cs : List Char} {kind : TokenKind} {v : Value} (shape : IsWord cs)
    (reserved : TokenKind.keyword? (String.ofList cs) = some kind)
    (stands : ∀ t : Token, t.kind = kind → Atom t (.literal v)) (text : printValue v = Text.ofChars cs) :
    ∃ f, (Node.literal v).Spells f := by
  let t : Token := ⟨kind, Text.ofChars cs, none, 0⟩
  refine ⟨.word cs (Sexp.bare_of_word shape), .word shape (t := t) ⟨rfl, .keyword shape (mem_keywords_iff.mpr reserved)⟩
    (stands t rfl) ?_⟩
  rw [Node.render, text]
  rfl

theorem spells_atom {t : Token} {cs : List Char} (lexed : t.Lexed cs) (stands : Atom t n)
    (finite : n.isFinite) : ∃ f, n.Spells f := by
  have written := Token.written_of_belongs lexed.belongs t.line
  cases stands with
  | yes =>
      refine spells_keyword ⟨'t', ['r', 'u', 'e'], rfl, rfl, ?_⟩ rfl (fun _ => .yes) rfl
      simp [isNameChar, isNameStart]
  | no =>
      refine spells_keyword ⟨'f', ['a', 'l', 's', 'e'], rfl, rfl, ?_⟩ rfl (fun _ => .no) rfl
      simp [isNameChar, isNameStart]
  | nothing =>
      refine spells_keyword ⟨'n', ['i', 'l'], rfl, rfl, ?_⟩ rfl (fun _ => .nothing) rfl
      simp [isNameChar, isNameStart]
  | number kind =>
      obtain ⟨x, literal⟩ := written.number kind
      have value : t.numberLiteral = .literal (.number x) := by
        have literal : t.literal = some (.number x) := literal
        rw [Token.numberLiteral, literal]
      rw [value] at finite ⊢
      have hasLiteral : (Value.number x).HasLiteral := by
        simpa [isFinite, Value.HasLiteral] using finite
      exact ⟨.word _ (Sexp.bare_of_plain hasLiteral), .number hasLiteral rfl⟩
  | string kind =>
      have belongs := lexed.belongs
      rw [kind] at belongs
      obtain ⟨body, closed, -, literal⟩ := belongs.string_cases
      have value : t.stringLiteral = .literal (.string (Text.ofChars body)) := by
        rw [Token.stringLiteral, literal]
      rw [value]
      exact ⟨.string body closed, .string⟩
  | name kind =>
      have belongs := lexed.belongs
      rw [kind] at belongs
      have shape := belongs.isWord_of_name
      refine ⟨.word cs (Sexp.bare_of_word shape), .word shape lexed (.name kind) ?_⟩
      rw [Node.render, lexed.lexeme]
      rfl

theorem bare_of_operator {t : Token} {cs : List Char} (lexed : t.Lexed cs) {rule : Rule}
    (member : t.kind ∈ rule.operators) : Sexp.Bare cs := by
  have other : ∀ kind ∈ rule.operators, kind ∉ [.leftParen, .rightParen, .string] := by
    cases rule <;> decide
  exact Sexp.bare_of_belongs lexed.belongs (other t.kind member)

theorem IsExpression.exists_spells (built : n.IsExpression fun t => ∃ cs, t.Lexed cs)
    (finite : n.isFinite) : ∃ f, n.Spells f := by
  induction built with
  | atom holds stands =>
      obtain ⟨cs, lexed⟩ := holds
      exact spells_atom lexed stands finite
  | unary holds member _ ih =>
      obtain ⟨cs, lexed⟩ := holds
      obtain ⟨f, spells⟩ := ih finite
      exact ⟨.one cs (bare_of_operator lexed member) f, .unary lexed member spells⟩
  | binary holds takes member _ _ ihLeft ihRight =>
      obtain ⟨cs, lexed⟩ := holds
      have finite := Bool.and_eq_true_iff.mp finite
      obtain ⟨f, first⟩ := ihLeft finite.1
      obtain ⟨g, second⟩ := ihRight finite.2
      exact ⟨.two cs (bare_of_operator lexed member) f g, .binary lexed first second⟩
  | grouping _ ih =>
      obtain ⟨f, spells⟩ := ih finite
      have bare : Sexp.Bare ['g', 'r', 'o', 'u', 'p'] := Sexp.bare_of_belongs belongs_group (by decide)
      exact ⟨.one _ bare f, .grouping rfl spells⟩

theorem IsStatement.exists_spells (built : n.IsStatement fun t => ∃ cs, t.Lexed cs)
    (finite : n.isFinite) : ∃ f, n.SpellsStatement f := by
  cases built with
  | expression inner =>
      obtain ⟨f, spells⟩ := inner.exists_spells finite
      have bare : Sexp.Bare ['e', 'x', 'p', 'r'] :=
        Sexp.bare_of_letters (by simp [isNameChar, isNameStart])
      exact ⟨.one _ bare f, .expression rfl spells⟩
  | print inner =>
      obtain ⟨f, spells⟩ := inner.exists_spells finite
      have bare : Sexp.Bare ['p', 'r', 'i', 'n', 't'] :=
        Sexp.bare_of_letters (by simp [isNameChar, isNameStart])
      exact ⟨.one _ bare f, .print rfl spells⟩
  | bare holds kind =>
      obtain ⟨cs, lexed⟩ := holds
      have bare : Sexp.Bare ['v', 'a', 'r'] := Sexp.bare_of_letters (by simp [isNameChar, isNameStart])
      have nameBare := Sexp.bare_of_belongs lexed.belongs (by rw [kind]; decide)
      rw [lexed.lexeme]
      exact ⟨.one _ bare (.word cs nameBare), .bare rfl⟩
  | initialized holds kind inner =>
      obtain ⟨cs, lexed⟩ := holds
      obtain ⟨f, spells⟩ := inner.exists_spells finite
      have bare : Sexp.Bare ['v', 'a', 'r'] := Sexp.bare_of_letters (by simp [isNameChar, isNameStart])
      have nameBare := Sexp.bare_of_belongs lexed.belongs (by rw [kind]; decide)
      rw [lexed.lexeme]
      exact ⟨.two _ bare (.word cs nameBare) f, .initialized rfl inner.ne_missing spells⟩

/-- Lines are not printed. -/
theorem Spells.render_unlined (spells : n.Spells f) : n.unlined.render = n.render := by
  induction spells with
  | number => rfl
  | word shape lexed stands text =>
      cases stands with
      | number kind =>
          unfold Token.numberLiteral
          split <;> rfl
      | string kind =>
          unfold Token.stringLiteral
          split <;> rfl
      | _ => rfl
  | string => rfl
  | @grouping inner f head bare word spells ih =>
      show (Node.grouping inner.unlined).render = _
      rw [Node.render, Node.render, ih]
  | @unary operator operand f head bare lexed member spells ih =>
      show (Node.unary (operator.mapLine _) operand.unlined).render = _
      rw [Node.render, Node.render, ih, Token.lexeme_mapLine]
  | @binary operator left right f g head bare lexed first second ihLeft ihRight =>
      show (Node.binary left.unlined (operator.mapLine _) right.unlined).render = _
      rw [Node.render, Node.render, ihLeft, ihRight, Token.lexeme_mapLine]

theorem SpellsStatement.render_unlined (spells : n.SpellsStatement f) : n.unlined.render = n.render := by
  cases spells with
  | @expression value f head bare word spells =>
      show (Node.expression value.unlined).render = _
      rw [Node.render, Node.render, spells.render_unlined]
  | @print value f head bare word spells =>
      show (Node.print value.unlined).render = _
      rw [Node.render, Node.render, spells.render_unlined]
  | bare => rfl
  | @initialized name head line bare nameBare value f word present spells =>
      show (Node.declaration _ value.unlined 0).render = _
      have still : value.unlined ≠ .missing := mapLine_ne_missing _ present
      rw [render_declaration _ _ present, render_declaration _ _ still, spells.render_unlined]

end Spelling

/-! ## Programs -/

/-- The programs that sources can write and that can be printed: read without a diagnostic, with finite
numbers only, and no statement beyond the printer's limit. -/
structure Printable (program : List Node) : Prop where
  read : ∃ source, FrontEnd.descent.read source = ⟨program, []⟩
  finite : ∀ statement ∈ program, statement.isFinite
  shallow : ∀ statement ∈ program, statement.depth ≤ printLimit

theorem toText_of_shallow {statement : Node} (shallow : statement.depth ≤ printLimit) :
    statement.toText = statement.render := by
  rw [toText, if_neg (Nat.not_lt.mpr shallow)]

/-- Every statement of a printable program has its S-expression. -/
theorem Printable.exists_spells {program : List Node} (printable : Printable program) :
    ∃ fs, List.Forall₂ SpellsStatement program fs := by
  obtain ⟨source, reads⟩ := printable.read
  have built := FrontEnd.lexed_of_read source
  rw [reads] at built
  have finite := printable.finite
  clear reads printable
  induction program with
  | nil => exact ⟨[], .nil⟩
  | cons statement rest ih =>
      obtain ⟨built, later⟩ := List.forall_mem_cons.mp built
      obtain ⟨finite, others⟩ := List.forall_mem_cons.mp finite
      obtain ⟨f, first⟩ := built.exists_spells finite
      obtain ⟨fs, further⟩ := ih later others
      exact ⟨f :: fs, .cons first further⟩

theorem programText_eq {program : List Node} {fs : List Sexp}
    (spells : List.Forall₂ SpellsStatement program fs)
    (shallow : ∀ statement ∈ program, statement.depth ≤ printLimit) :
    programText program = .ok (Text.ofChars (Sexp.lines fs)) := by
  have each : program.mapM toText = .ok (fs.map fun f => Text.ofChars f.chars) := by
    induction spells with
    | nil => rfl
    | cons first rest ih =>
        rw [List.mapM_cons, toText_of_shallow (shallow _ List.mem_cons_self), first.render_eq,
          ih fun statement member => shallow statement (List.mem_cons_of_mem _ member)]
        rfl
  rw [programText, each, ← Sexp.intercalate_chars]
  rfl

/-- Statements with the same S-expressions are the same but for their lines. -/
theorem unlined_of_spells {p q : List Node} {fs : List Sexp} (spells : List.Forall₂ SpellsStatement p fs)
    (spells' : List.Forall₂ SpellsStatement q fs) : p.map unlined = q.map unlined := by
  induction spells generalizing q with
  | nil =>
      cases spells'
      rfl
  | cons first rest ih =>
      cases spells' with
      | cons first' rest' => rw [List.map_cons, List.map_cons, first.unique first', ih rest']

theorem render_of_spells {p : List Node} {fs : List Sexp} (spells : List.Forall₂ SpellsStatement p fs) :
    (p.map unlined).map Node.render = (fs.map fun f => Text.ofChars f.chars).map .ok := by
  induction spells with
  | nil => rfl
  | cons first rest ih =>
      simp only [List.map_cons]
      rw [first.render_unlined, first.render_eq, ih]

/-- **The printed form determines the program.**  A printable program has a printed form, and the forms
of two of them are the same exactly if the programs are the same but for their lines. -/
theorem printed_form_determines_program {p q : List Node} (printable : Printable p)
    (printable' : Printable q) :
    ∃ t u, programText p = .ok t ∧ programText q = .ok u ∧ (t = u ↔ p.map unlined = q.map unlined) := by
  obtain ⟨fs, spells⟩ := printable.exists_spells
  obtain ⟨gs, spells'⟩ := printable'.exists_spells
  refine ⟨_, _, programText_eq spells printable.shallow, programText_eq spells' printable'.shallow, ?_⟩
  constructor
  · intro same
    obtain rfl := Sexp.lines_injective (Text.ofChars_injective same)
    exact unlined_of_spells spells spells'
  · intro same
    have renders := render_of_spells spells
    rw [same, render_of_spells spells'] at renders
    have texts := List.map_injective_iff.mpr (fun _ _ => Except.ok.inj) renders
    rw [← Sexp.intercalate_chars, ← Sexp.intercalate_chars, texts]

/-- Two sources of one program: layout, comments and the spelling of a number differ, and so do lines. -/
theorem printed_form_determines_two_sources :
    let p := (FrontEnd.descent.read "var group = -1.50; // negative\nprint (group) - -\"a\n)\";").statements
    let q := (FrontEnd.descent.read "var group=-01.5;print(group)--\"a\n)\";").statements
    Printable p ∧ Printable q ∧ p.map Node.line ≠ q.map Node.line ∧ p.map unlined = q.map unlined := by
  intro p q
  have printable : Printable p := ⟨⟨_, congrArg (Reading.mk p) (by decide +kernel)⟩, by decide +kernel,
    by decide +kernel⟩
  have printable' : Printable q := ⟨⟨_, congrArg (Reading.mk q) (by decide +kernel)⟩, by decide +kernel,
    by decide +kernel⟩
  obtain ⟨t, u, prints, prints', same⟩ := printed_form_determines_program printable printable'
  have texts : programText p = programText q := by decide +kernel
  refine ⟨printable, printable', by decide +kernel, same.mp ?_⟩
  exact Except.ok.inj (prints.symm.trans (texts.trans prints'))

end Node

end LoxLang
