/-
# LoxLang.Proofs.Statements -- what the front ends build

A front end returns statements, whatever is wrong with the rest of the text: expressions
made of atoms, groups and operators, and around each one an expression statement, a print
statement or a declaration.  All that such a tree holds it has from the tokens of the text.

Those tokens are as written.  Their lexemes are characters of the text, numbers, strings
and names carry what they stand for and other tokens carry nothing, and their lines lie
between the first line of the text and its last.
-/
import LoxLang.Proofs.Lexemes
import LoxLang.Proofs.Recovery

namespace LoxLang

open LoxLang.Derivation

set_option autoImplicit false

/-! ## Statements made of tokens -/

namespace Node

/-- An expression made of tokens for which `P` holds. -/
inductive IsExpression (P : Token → Prop) : Node → Prop where
  | atom {t : Token} {node : Node} (holds : P t) (stands : Atom t node) : IsExpression P node
  | unary {operator : Token} {operand : Node} (holds : P operator)
      (member : operator.kind ∈ Rule.unary.operators) (inner : IsExpression P operand) :
      IsExpression P (.unary operator operand)
  | binary {left right : Node} {operator : Token} {level tighter : Rule} (holds : P operator)
      (takes : level.operand? = some tighter) (member : operator.kind ∈ level.operators)
      (first : IsExpression P left) (second : IsExpression P right) :
      IsExpression P (.binary left operator right)
  | grouping {inner : Node} (value : IsExpression P inner) : IsExpression P (.grouping inner)

/-- A statement made of tokens for which `P` holds. -/
inductive IsStatement (P : Token → Prop) : Node → Prop where
  | expression {value : Node} (inner : IsExpression P value) : IsStatement P (.expression value)
  | print {value : Node} (inner : IsExpression P value) : IsStatement P (.print value)
  | bare {name : Token} (holds : P name) (kind : name.kind = .identifier) :
      IsStatement P (.declaration name.lexeme .missing name.line)
  | initialized {name : Token} {value : Node} (holds : P name) (kind : name.kind = .identifier)
      (inner : IsExpression P value) : IsStatement P (.declaration name.lexeme value name.line)

section Mono

variable {P Q : Token → Prop} {node : Node}

theorem IsExpression.mono (implies : ∀ t, P t → Q t) (built : IsExpression P node) :
    IsExpression Q node := by
  induction built with
  | atom holds stands => exact .atom (implies _ holds) stands
  | unary holds member _ inner => exact .unary (implies _ holds) member inner
  | binary holds takes member _ _ first second =>
      exact .binary (implies _ holds) takes member first second
  | grouping _ inner => exact .grouping inner

theorem IsStatement.mono (implies : ∀ t, P t → Q t) (built : IsStatement P node) :
    IsStatement Q node := by
  cases built with
  | expression inner => exact .expression (inner.mono implies)
  | print inner => exact .print (inner.mono implies)
  | bare holds kind => exact .bare (implies _ holds) kind
  | initialized holds kind inner => exact .initialized (implies _ holds) kind (inner.mono implies)

theorem IsExpression.ne_missing (built : IsExpression P node) : node ≠ .missing := by
  cases built with
  | atom _ stands => exact stands.ne_missing
  | _ => exact nofun

end Mono

end Node

namespace Derivation

variable {P : Token → Prop}

mutual

/-- The syntax tree of a derivation is an expression made of the tokens that are derived. -/
theorem Tree.isExpression : {rule : Rule} → (d : Tree rule) → (∀ t ∈ d.yield, P t) →
    d.ast.IsExpression P
  | _, .expression value, holds => value.isExpression holds
  | _, .level takes first more, holds => by
      obtain ⟨front, behind⟩ := List.forall_mem_append.mp holds
      exact more.isExpression takes (first.isExpression front) behind
  | _, .unary operator operand, holds => by
      obtain ⟨front, behind⟩ := List.forall_mem_cons.mp holds
      exact .unary front operator.mem (operand.isExpression behind)
  | _, .primary value, holds => value.isExpression holds
  | _, .atom t stands, holds => .atom (holds t List.mem_cons_self) stands
  | _, .group opening inner closing, holds => by
      obtain ⟨-, behind⟩ := List.forall_mem_cons.mp holds
      exact .grouping (inner.isExpression (List.forall_mem_append.mp behind).1)

theorem Further.isExpression : {level operand : Rule} → (more : Further level operand) →
    level.operand? = some operand → {left : Node} → left.IsExpression P → (∀ t ∈ more.yield, P t) →
    (more.fold left).IsExpression P
  | _, _, .done, _, _, left, _ => left
  | _, _, .step operator right more, takes, _, left, holds => by
      obtain ⟨front, behind⟩ := List.forall_mem_cons.mp holds
      obtain ⟨inner, further⟩ := List.forall_mem_append.mp behind
      exact more.isExpression takes
        (.binary front takes operator.mem left (right.isExpression inner)) further

end

theorem Declaration.isStatement (d : Declaration) (holds : ∀ t ∈ d.yield, P t) :
    d.ast.IsStatement P := by
  cases d with
  | bare word name semicolon =>
      have here : P name.1 := holds name.1 (by simp [Declaration.yield])
      exact .bare here name.2
  | initialized word name equal value semicolon =>
      have here : P name.1 := holds name.1 (by simp [Declaration.yield])
      refine .initialized here name.2 (value.isExpression fun t member => holds t ?_)
      simp [Declaration.yield, member]
  | print word value semicolon =>
      refine .print (value.isExpression fun t member => holds t ?_)
      simp [Declaration.yield, member]
  | expression value semicolon =>
      refine .expression (value.isExpression fun t member => holds t ?_)
      simp [Declaration.yield, member]

end Derivation

/-! ## Statements of a reading -/

/-- Each pass that ends well gives a statement made of the tokens it read. -/
theorem Descent.isStatement_of_mem_passes (limit : Nat) (ts : List Token) :
    ∀ node, .ok node ∈ passes limit ts → node.IsStatement (· ∈ ts) := by
  fun_induction passes limit ts with
  | case1 =>
      intro node member
      cases member
  | case2 t ts node rest read ih =>
      obtain ⟨d, same, rfl, -⟩ := statement_sound read
      intro node' member
      rcases List.mem_cons.mp member with first | later
      · cases first
        refine d.isStatement fun u inside => ?_
        rw [same]
        exact List.mem_append_left rest inside
      · refine (ih node' later).mono fun u inside => ?_
        rw [same]
        exact List.mem_append_right d.yield inside
  | case3 t ts fault failed ih =>
      intro node member
      rcases List.mem_cons.mp member with first | later
      · cases first
      · have unread : fault.rest <:+ t :: ts := by
          have leaves := statement_leaves limit t ts
          rwa [failed] at leaves
        exact (ih node later).mono fun u inside => ((recover_suffix _).trans unread).subset inside

/-- The stack machine returns the statements of a program or none. -/
theorem ShiftReduce.statements_eq_nil {stream : Stream} (faulty : (read stream).diagnostics ≠ []) :
    (read stream).statements = [] := by
  unfold read at faulty ⊢
  split
  · rfl
  · rename_i located
    split
    · rfl
    · rename_i shallow
      rw [located] at faulty
      simp [shallow] at faulty

namespace FrontEnd

/-- The tokens that a front end reads a text as. -/
def tokens : FrontEnd → String → List Token
  | .descent, source => Segment.tokens 1 (Segment.cut source.toList)
  | .stream, source => (Stream.ofText source).tokens

/-- **A front end returns statements made of the tokens of the text.** -/
theorem isStatement_of_read (frontEnd : FrontEnd) (source : String) :
    ∀ s ∈ (frontEnd.read source).statements, s.IsStatement (· ∈ frontEnd.tokens source) := by
  intro s member
  cases frontEnd with
  | descent =>
      rw [read_descent] at member
      obtain ⟨pass, passed, found⟩ := List.mem_filterMap.mp member
      cases pass with
      | ok node =>
          cases found
          exact Descent.isStatement_of_mem_passes _ _ _ passed
      | error fault => cases found
  | stream =>
      by_cases clean : (ShiftReduce.read (Stream.ofText source)).diagnostics = []
      · obtain ⟨-, p, yields, statements⟩ := ShiftReduce.read_sound clean
        have member : s ∈ (ShiftReduce.read (Stream.ofText source)).statements := member
        rw [statements] at member
        obtain ⟨d, inside, rfl⟩ := List.mem_map.mp member
        refine d.isStatement fun t yielded => ?_
        show t ∈ (Stream.ofText source).tokens
        rw [← yields]
        exact List.mem_flatMap.mpr ⟨d, inside, yielded⟩
      · have member : s ∈ (ShiftReduce.read (Stream.ofText source)).statements := member
        rw [ShiftReduce.statements_eq_nil clean] at member
        cases member

end FrontEnd

/-! ## Tokens as written -/

namespace Token

/-- A token as it is read from a text: its lexeme is made of characters, and it carries a literal if it
is a number, a string or a name, and none otherwise. -/
structure Written (t : Token) : Prop where
  lexeme : ∃ cs, t.lexeme = Text.ofChars cs
  number : t.kind = .number → ∃ x, t.literal = some (.number x)
  string : t.kind = .string → ∃ cs, t.literal = some (.text (Text.ofChars cs))
  name : t.kind = .identifier → t.literal = some (.text t.lexeme)
  bare : t.kind ∉ [.number, .string, .identifier] → t.literal = none

theorem written_of_none {kind : TokenKind} (other : kind ∉ [.number, .string, .identifier])
    (cs : List Char) (line : Int) : Written ⟨kind, Text.ofChars cs, none, line⟩ := by
  simp only [List.mem_cons, List.not_mem_nil, or_false, not_or] at other
  exact ⟨⟨cs, rfl⟩, fun is => absurd is other.1, fun is => absurd is other.2.1,
    fun is => absurd is other.2.2, fun _ => rfl⟩

theorem written_number (x : Float) (cs : List Char) (line : Int) :
    Written ⟨.number, Text.ofChars cs, some (.number x), line⟩ :=
  ⟨⟨cs, rfl⟩, fun _ => ⟨x, rfl⟩, nofun, nofun, fun other => absurd (by simp) other⟩

theorem written_string (body cs : List Char) (line : Int) :
    Written ⟨.string, Text.ofChars cs, some (.text (Text.ofChars body)), line⟩ :=
  ⟨⟨cs, rfl⟩, nofun, fun _ => ⟨body, rfl⟩, nofun, fun other => absurd (by simp) other⟩

theorem written_name (cs : List Char) (line : Int) :
    Written ⟨.identifier, Text.ofChars cs, some (.text (Text.ofChars cs)), line⟩ :=
  ⟨⟨cs, rfl⟩, nofun, nofun, fun _ => rfl, fun other => absurd (by simp) other⟩

/-- The token of a lexeme is as written. -/
theorem written_of_belongs {text : List Char} {kind : TokenKind} {literal : Option Literal}
    (belongs : Lexeme.Belongs text (.token kind literal)) (line : Int) :
    Written ⟨kind, Text.ofChars text, literal, line⟩ := by
  cases belongs with
  | mark listed =>
      have kinds : ∀ entry ∈ Lexeme.marks, entry.2 ∉ [.number, .string, .identifier] := by decide
      exact written_of_none (kinds _ listed) _ line
  | string inside => exact written_string _ _ line
  | number shape value => exact written_number _ _ line
  | keyword shape listed =>
      have kinds : ∀ entry ∈ Lexeme.keywords, entry.2 ∉ [.number, .string, .identifier] := by decide
      exact written_of_none (kinds _ listed) _ line
  | name shape free => exact written_name _ line

end Token

/-- A value as a text can write it: a string is made of characters. -/
def Value.Written : Value → Prop
  | .string s => ∃ cs, s = Text.ofChars cs
  | _ => True

/-- An atom that is written stands for a value or refers to its name. -/
theorem Token.Written.atom {t : Token} (written : t.Written) {node : Node} (stands : Atom t node) :
    (∃ value, node = .literal value ∧ value.Written) ∨
      t.kind = .identifier ∧ node = .reference t.lexeme t.line := by
  cases stands with
  | yes => exact .inl ⟨_, rfl, trivial⟩
  | no => exact .inl ⟨_, rfl, trivial⟩
  | nothing => exact .inl ⟨_, rfl, trivial⟩
  | number kind =>
      obtain ⟨x, literal⟩ := written.number kind
      exact .inl ⟨.number x, by simp [numberLiteral, literal], trivial⟩
  | string kind =>
      obtain ⟨cs, literal⟩ := written.string kind
      exact .inl ⟨.string (Text.ofChars cs), by simp [stringLiteral, literal], cs, rfl⟩
  | name kind => exact .inr ⟨kind, rfl⟩

namespace Segment

/-- The token of a segment is its lexeme, with the kind and the literal of its class. -/
theorem belongs_of_token? {s : Segment} {rest : List Char} (heads : Heads rest s) {line : Nat} {t : Token}
    (token : s.token? line = some t) :
    t.lexeme = Text.ofChars s.text ∧ Lexeme.Belongs s.text (.token t.kind t.literal) ∧ t.line = line := by
  unfold token? at token
  split at token
  · rename_i kind literal isToken
    cases token
    refine ⟨rfl, ?_, rfl⟩
    rw [← isToken]
    cases heads with
    | lexeme belongs _ => exact belongs
    | _ => cases isToken
  · cases token

/-- The tokens of segments are as written and stand on lines that the segments cover. -/
theorem tokens_written (line : Nat) {segments : List Segment} (cuts : Cuts segments) :
    ∀ t ∈ tokens line segments, t.Written ∧ (line : Int) ≤ t.line ∧
      t.line ≤ line + (segments.flatMap text).count '\n' := by
  induction segments generalizing line with
  | nil => nofun
  | cons s rest ih =>
      obtain ⟨heads, further⟩ := cuts_cons.mp cuts
      intro t member
      rw [List.flatMap_cons, List.count_append]
      rcases List.mem_append.mp member with first | later
      · obtain ⟨lexeme, belongs, placed⟩ := belongs_of_token? heads (Option.mem_toList.mp first)
        have written := Token.written_of_belongs belongs t.line
        rw [← lexeme] at written
        refine ⟨written, ?_, ?_⟩ <;>
          · rw [placed, newlines]
            push_cast
            omega
      · obtain ⟨written, above, below⟩ := ih (line + s.newlines) further t later
        unfold newlines at above below
        push_cast at above below ⊢
        exact ⟨written, by omega, by omega⟩

end Segment

namespace Stream

/-- The token of a terminal is as written and stands on the terminal's line. -/
theorem written_of_token? {terminal : Terminal} (listed : terminal ∈ terminals) {line : Nat}
    {text : List Char} {t : Token} (token : terminal.token? line text = some t) :
    t.Written ∧ t.line = line := by
  cases terminal with
  | name =>
      simp only [Terminal.token?] at token
      split at token
      · rename_i kind word
        cases token
        refine ⟨Token.written_of_none ?_ _ _, rfl⟩
        unfold word? at word
        split at word <;> cases word <;> decide
      · cases token
        exact ⟨Token.written_name _ _, rfl⟩
  | comment => cases token
  | blanks => cases token
  | number =>
      cases token
      exact ⟨Token.written_number _ _ _, rfl⟩
  | string =>
      cases token
      exact ⟨Token.written_string _ _ _, rfl⟩
  | mark kind marked =>
      cases token
      have bare : ∀ mark ∈ terminals, ∀ kind text, mark = .mark kind text →
          kind ∉ [.number, .string, .identifier] := by
        simp [terminals, marks]
      exact ⟨Token.written_of_none (bare _ listed kind marked rfl) _ _, rfl⟩

/-- What a terminal takes stands in front of the text. -/
theorem prefix_of_take? {terminal : Terminal} {c : Char} {cs further : List Char}
    (taken : terminal.take? c cs = some further) : further <+: cs := by
  cases terminal with
  | name =>
      obtain ⟨-, same⟩ := Option.ite_none_right_eq_some.mp taken
      cases same
      exact List.takeWhile_prefix _
  | comment =>
      obtain ⟨-, same⟩ := Option.ite_none_right_eq_some.mp taken
      cases same
      exact List.takeWhile_prefix _
  | number =>
      obtain ⟨-, same⟩ := Option.ite_none_right_eq_some.mp taken
      cases same
      have behind : optionalFraction (cs.dropWhile Lexeme.isDigit) <+: cs.dropWhile Lexeme.isDigit := by
        unfold optionalFraction
        split
        · split
          · rename_i d ds point _
            obtain ⟨behind, same⟩ : ds.takeWhile Lexeme.isDigit <+: ds := List.takeWhile_prefix _
            exact ⟨behind, by rw [List.cons_append, List.cons_append, same, point]⟩
          · exact List.nil_prefix
        · exact List.nil_prefix
      have whole := (List.prefix_append_right_inj (cs.takeWhile Lexeme.isDigit)).mpr behind
      rwa [List.takeWhile_append_dropWhile] at whole
  | string =>
      obtain ⟨closed, same⟩ := Option.ite_none_right_eq_some.mp taken
      cases same
      have closing : '"' ∈ cs := by simp_all
      obtain ⟨body, rest, rfl, inside⟩ := List.eq_append_cons_of_mem closing
      rw [List.takeWhile_append_of_pos (Segment.ne_of_not_mem inside)]
      exact ⟨rest, by simp⟩
  | blanks =>
      obtain ⟨-, same⟩ := Option.ite_none_right_eq_some.mp taken
      cases same
      exact List.takeWhile_prefix _
  | mark kind text =>
      obtain ⟨starts, same⟩ := Option.ite_none_right_eq_some.mp taken
      cases same
      obtain ⟨rest, same⟩ := List.isPrefixOf_iff_prefix.mp starts
      cases text with
      | nil => exact List.nil_prefix
      | cons d ds =>
          cases same
          exact List.prefix_append ds rest

/-- The tokens of a stream are as written and stand on lines that the text covers. -/
theorem lex_written (line : Nat) (cs : List Char) :
    ∀ t ∈ (lex line cs).tokens, t.Written ∧ (line : Int) ≤ t.line ∧ t.line ≤ line + cs.count '\n' := by
  fun_induction lex line cs with
  | case1 =>
      intro t member
      cases member
  | case2 =>
      intro t member
      cases member
  | case3 line c cs terminal further found ih =>
      obtain ⟨listed, taken⟩ : terminal ∈ terminals ∧ terminal.take? c cs = some further := by
        obtain ⟨other, member, taken⟩ := List.exists_of_findSome?_eq_some found
        obtain ⟨taken', same, pair⟩ := Option.map_eq_some_iff.mp taken
        cases pair
        exact ⟨member, same⟩
      intro t member
      rcases List.mem_append.mp member with first | later
      · obtain ⟨written, onLine⟩ := written_of_token? listed (Option.mem_toList.mp first)
        exact ⟨written, by omega, by omega⟩
      · obtain ⟨written, above, below⟩ := ih t later
        obtain ⟨behind, rfl⟩ := prefix_of_take? taken
        rw [List.drop_left] at below
        rw [← List.cons_append, List.count_append]
        push_cast at above below ⊢
        exact ⟨written, by omega, by omega⟩

end Stream

/-- **The tokens of a text are as written and stand on its lines.** -/
theorem FrontEnd.tokens_written (frontEnd : FrontEnd) (source : String) :
    ∀ t ∈ frontEnd.tokens source, t.Written ∧ 1 ≤ t.line ∧ t.line ≤ 1 + source.toList.count '\n' := by
  cases frontEnd with
  | descent =>
      have written := Segment.tokens_written 1 (Segment.cuts_cut source.toList)
      rw [Segment.flatMap_text_cut] at written
      exact written
  | stream => exact Stream.lex_written 1 source.toList

/-- **The statements of a text are made of tokens as they are written on its lines.** -/
theorem FrontEnd.written_of_read (frontEnd : FrontEnd) (source : String) :
    ∀ s ∈ (frontEnd.read source).statements, s.IsStatement fun t =>
      t.Written ∧ 1 ≤ t.line ∧ t.line ≤ 1 + source.toList.count '\n' :=
  fun s member => (frontEnd.isStatement_of_read source s member).mono
    fun t inside => frontEnd.tokens_written source t inside

theorem FrontEnd.isStatement_written (frontEnd : FrontEnd) (source : String) :
    ∀ s ∈ (frontEnd.read source).statements, s.IsStatement Token.Written :=
  fun s member => (frontEnd.written_of_read source s member).mono fun _ => And.left

/-- The expression of an expression statement of a text. -/
theorem FrontEnd.isExpression_written {frontEnd : FrontEnd} {source : String} {value : Node}
    (member : .expression value ∈ (frontEnd.read source).statements) :
    value.IsExpression Token.Written := by
  cases frontEnd.isStatement_written source _ member with
  | expression inner => exact inner

end LoxLang
