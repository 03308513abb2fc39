/-
# LoxLang.Grammar.Descent -- reading by recursive descent

Each rule of the grammar takes its tokens from the head of a list and returns the rest.
A statement that cannot be read is reported and dropped; reading goes on behind the next
semicolon or in front of the next word that starts a statement.  So every faulty
statement is reported, once.

Rules may be open inside one another up to a limit.  Every group opens seven rules, from
`expression` to `primary`, and every unary operator one more; the recursion runs on what
is left of the limit.  A chain of binary operators is a loop over the tokens.

The limit is an ideal one.  It counts rules, whatever it takes to follow one of them, and is
checked where a rule is entered and nowhere else.  What a rule does besides, to look at
tokens, to build a node or to report a fault, takes nothing of it: a report is made as a
whole wherever the fault is.
-/
import LoxLang.Grammar

namespace LoxLang.Descent

set_option autoImplicit false

/-- The most rules that may be open inside one another. -/
def ruleLimit : Nat := 1000

/-- What was expected, or that rules nest too deeply. -/
inductive Cause where
  | variableName | endOfDeclaration | endOfValue | endOfExpression | closingParen | operand | tooDeep
  deriving DecidableEq, Repr

def Cause.message : Cause → String
  | .variableName => "Expect variable name."
  | .endOfDeclaration => "Expect ';' after variable declaration."
  | .endOfValue => "Expect ';' after value."
  | .endOfExpression => "Expect ';' after expression."
  | .closingParen => "Expect ')' after expression."
  | .operand => "Expect expression."
  | .tooDeep => tooDeepMessage

/-- A fault in front of the tokens that were still unread. -/
structure Fault where
  cause : Cause
  rest : List Token
  deriving DecidableEq

/-- A node and the tokens behind it, or a fault. -/
abbrev Parsed := Except Fault (Node × List Token)

/-! ## Expressions -/

/-- Take further operators and operands into `left` as long as an operator of the list follows.
Every round takes a token, so any list as long as the tokens is fuel enough. -/
def chain (operators : List TokenKind) (operand : List Token → Parsed) :
    (fuel : List Token) → Node → List Token → Parsed
  | _ :: fuel, left, operator :: ts =>
      if operator.kind ∈ operators then
        match operand ts with
        | .error fault => .error fault
        | .ok (right, rest) => chain operators operand fuel (.binary left operator right) rest
      else .ok (left, operator :: ts)
  | _, left, ts => .ok (left, ts)

/-- An operand, then operators and operands grouped to the left. -/
def leftGrouped (operators : List TokenKind) (operand : List Token → Parsed)
    (ts : List Token) : Parsed :=
  match operand ts with
  | .error fault => .error fault
  | .ok (left, rest) => chain operators operand rest left rest

/-- Take a token of one kind. -/
def expect (kind : TokenKind) (cause : Cause) : List Token → Except Fault (List Token)
  | [] => .error ⟨cause, []⟩
  | t :: rest => if t.kind = kind then .ok rest else .error ⟨cause, t :: rest⟩

/-- Read one rule while at most `limit` rules are open. -/
def parse : (limit : Nat) → Rule → List Token → Parsed
  | 0, _, ts => .error ⟨.tooDeep, ts⟩
  | limit + 1, .expression, ts => parse limit .equality ts
  | limit + 1, .equality, ts => leftGrouped Rule.equality.operators (parse limit .comparison) ts
  | limit + 1, .comparison, ts => leftGrouped Rule.comparison.operators (parse limit .term) ts
  | limit + 1, .term, ts => leftGrouped Rule.term.operators (parse limit .factor) ts
  | limit + 1, .factor, ts => leftGrouped Rule.factor.operators (parse limit .unary) ts
  | limit + 1, .unary, ts =>
      match ts with
      | [] => parse limit .primary []
      | operator :: rest =>
          if operator.kind ∈ Rule.unary.operators then
            match parse limit .unary rest with
            | .error fault => .error fault
            | .ok (operand, rest) => .ok (.unary operator operand, rest)
          else parse limit .primary (operator :: rest)
  | limit + 1, .primary, ts =>
      match ts with
      | [] => .error ⟨.operand, []⟩
      | t :: rest =>
          match t.atom? with
          | some atom => .ok (atom, rest)
          | none =>
              if t.kind = .leftParen then
                match parse limit .expression rest with
                | .error fault => .error fault
                | .ok (inner, rest) =>
                    match expect .rightParen .closingParen rest with
                    | .error fault => .error fault
                    | .ok rest => .ok (.grouping inner, rest)
              else .error ⟨.operand, t :: rest⟩

/-! ## Statements -/

/-- An expression and the semicolon behind it. -/
def closed (limit : Nat) (cause : Cause) (build : Node → Node) (ts : List Token) : Parsed :=
  match parse limit .expression ts with
  | .error fault => .error fault
  | .ok (value, rest) =>
      match expect .semicolon cause rest with
      | .error fault => .error fault
      | .ok rest => .ok (build value, rest)

/-- The rest of a declaration behind its name. -/
def initializer (limit : Nat) (name : Token) : List Token → Parsed
  | [] => .error ⟨.endOfDeclaration, []⟩
  | t :: rest =>
      if t.kind = .equal then
        closed limit .endOfDeclaration (fun value => .declaration name.lexeme value name.line) rest
      else if t.kind = .semicolon then .ok (.declaration name.lexeme .missing name.line, rest)
      else .error ⟨.endOfDeclaration, t :: rest⟩

/-- The rest of a declaration behind its first word. -/
def declaration (limit : Nat) : List Token → Parsed
  | [] => .error ⟨.variableName, []⟩
  | name :: rest =>
      if name.kind = .identifier then initializer limit name rest
      else .error ⟨.variableName, name :: rest⟩

/-- One declaration or statement, in which at most `limit` rules are open. -/
def statement (limit : Nat) : List Token → Parsed
  | [] => .error ⟨.operand, []⟩
  | t :: rest =>
      if t.kind = .wordVar then declaration limit rest
      else if t.kind = .wordPrint then closed limit .endOfValue .print rest
      else closed limit .endOfExpression .expression (t :: rest)

/-- The words in front of which reading goes on after a fault. -/
def statementStarts : List TokenKind :=
  [.wordClass, .wordFun, .wordVar, .wordFor, .wordIf, .wordWhile, .wordPrint, .wordReturn]

/-- Skip the token at fault and what follows it, up to a semicolon or a word that starts a
statement. -/
def recover : List Token → List Token
  | [] => []
  | t :: rest =>
      if t.kind = .semicolon then rest
      else match rest with
        | [] => []
        | next :: _ => if next.kind ∈ statementStarts then rest else recover rest

/-! ## What a rule leaves -/

/-- Success leaves a shorter end of the tokens, a fault some end of them. -/
def Leaves (ts : List Token) : Parsed → Prop
  | .ok (_, rest) => rest <:+ ts ∧ rest.length < ts.length
  | .error fault => fault.rest <:+ ts

theorem Leaves.mono {ts us : List Token} {p : Parsed} (suffix : ts <:+ us) (leaves : Leaves ts p) :
    Leaves us p := by
  match p, leaves with
  | .ok (_, rest), ⟨isSuffix, shorter⟩ =>
      exact ⟨isSuffix.trans suffix, Nat.lt_of_lt_of_le shorter suffix.length_le⟩
  | .error fault, isSuffix => exact isSuffix.trans suffix

theorem chain_leaves (operators : List TokenKind) (operand : List Token → Parsed)
    (each : ∀ ts, Leaves ts (operand ts)) (fuel : List Token) (left : Node) (us ts : List Token)
    (suffix : ts <:+ us) (shorter : ts.length < us.length) :
    Leaves us (chain operators operand fuel left ts) := by
  induction fuel generalizing left ts with
  | nil => exact ⟨suffix, shorter⟩
  | cons _ fuel ih =>
      cases ts with
      | nil => exact ⟨suffix, shorter⟩
      | cons operator ts =>
          unfold chain
          split
          · have here := each ts
            have tail : ts <:+ us := (List.suffix_cons operator ts).trans suffix
            split
            · rename_i fault same
              rw [same] at here
              exact here.mono tail
            · rename_i right rest same
              rw [same] at here
              refine ih _ rest (here.1.trans tail) ?_
              have := here.2
              have := tail.length_le
              omega
          · exact ⟨suffix, shorter⟩

theorem leftGrouped_leaves (operators : List TokenKind) (operand : List Token → Parsed)
    (each : ∀ ts, Leaves ts (operand ts)) (ts : List Token) :
    Leaves ts (leftGrouped operators operand ts) := by
  unfold leftGrouped
  have here := each ts
  split
  · rename_i fault same
    rwa [same] at here
  · rename_i left rest same
    rw [same] at here
    exact chain_leaves operators operand each _ _ _ _ here.1 here.2

theorem expect_leaves {kind : TokenKind} {cause : Cause} {us ts : List Token} (build : Node)
    (suffix : ts <:+ us) :
    Leaves us (match expect kind cause ts with
      | .error fault => .error fault
      | .ok rest => .ok (build, rest)) := by
  cases ts with
  | nil => exact suffix
  | cons t rest =>
      by_cases same : t.kind = kind
      · simp only [expect, if_pos same]
        refine ⟨(List.suffix_cons t _).trans suffix, ?_⟩
        have := suffix.length_le
        simp only [List.length_cons] at this
        omega
      · simp only [expect, if_neg same]
        exact suffix

theorem parse_leaves (limit : Nat) (rule : Rule) (ts : List Token) :
    Leaves ts (parse limit rule ts) := by
  induction limit generalizing rule ts with
  | zero => exact List.suffix_rfl
  | succ limit ih =>
      cases rule with
      | expression => exact ih _ _
      | equality => exact leftGrouped_leaves _ _ (ih _) ts
      | comparison => exact leftGrouped_leaves _ _ (ih _) ts
      | term => exact leftGrouped_leaves _ _ (ih _) ts
      | factor => exact leftGrouped_leaves _ _ (ih _) ts
      | unary =>
          unfold parse
          cases ts with
          | nil => exact ih _ _
          | cons operator rest =>
              simp only
              split
              · have here := (ih .unary rest).mono (List.suffix_cons operator rest)
                split
                · rename_i fault same
                  rwa [same] at here
                · rename_i operand rest' same
                  rwa [same] at here
              · exact ih _ _
      | primary =>
          unfold parse
          cases ts with
          | nil => exact List.suffix_rfl
          | cons t rest =>
              simp only
              split
              · exact ⟨List.suffix_cons t rest, by simp⟩
              · split
                · have here := (ih .expression rest).mono (List.suffix_cons t rest)
                  split
                  · rename_i fault same
                    rwa [same] at here
                  · rename_i inner rest' same
                    rw [same] at here
                    exact expect_leaves _ here.1
                · exact List.suffix_rfl

theorem closed_leaves (limit : Nat) (cause : Cause) (build : Node → Node) (ts : List Token) :
    Leaves ts (closed limit cause build ts) := by
  unfold closed
  have here := parse_leaves limit .expression ts
  split
  · rename_i fault same
    rwa [same] at here
  · rename_i value rest same
    rw [same] at here
    exact expect_leaves _ here.1

theorem statement_leaves (limit : Nat) (t : Token) (ts : List Token) :
    Leaves (t :: ts) (statement limit (t :: ts)) := by
  have skip {p : Parsed} (leaves : Leaves ts p) : Leaves (t :: ts) p :=
    leaves.mono (List.suffix_cons t ts)
  simp only [statement]
  split
  · apply skip
    cases ts with
    | nil => exact List.suffix_rfl
    | cons name rest =>
        simp only [declaration]
        split
        · refine Leaves.mono (List.suffix_cons name rest) ?_
          cases rest with
          | nil => exact List.suffix_rfl
          | cons u rest =>
              simp only [initializer]
              split
              · exact (closed_leaves _ _ _ _).mono (List.suffix_cons u rest)
              · split
                · exact ⟨List.suffix_cons u rest, by simp⟩
                · exact List.suffix_rfl
        · exact List.suffix_rfl
  · split
    · exact skip (closed_leaves _ _ _ _)
    · exact closed_leaves _ _ _ _

theorem recover_length (ts : List Token) : (recover ts).length ≤ ts.length - 1 := by
  induction ts with
  | nil => simp [recover]
  | cons t rest ih =>
      unfold recover
      split
      · simp
      · split
        · simp
        · rename_i next rest
          split
          · simp
          · simp only [List.length_cons] at ih ⊢
            omega

/-! ## Programs -/

/-- What each pass over the tokens gives, a statement or a fault.  The limit holds for each statement
by itself. -/
def passes (limit : Nat) : List Token → List (Except Fault Node)
  | [] => []
  | t :: ts =>
      match _ : statement limit (t :: ts) with
      | .ok (node, rest) => .ok node :: passes limit rest
      | .error fault => .error fault :: passes limit (recover fault.rest)
termination_by ts => ts.length
decreasing_by
  · rename_i same
    have leaves := statement_leaves limit t ts
    rw [same] at leaves
    exact leaves.2
  · rename_i same
    have leaves : fault.rest <:+ t :: ts := by
      have leaves := statement_leaves limit t ts
      rwa [same] at leaves
    have := leaves.length_le
    have := recover_length fault.rest
    simp only [List.length_cons] at *
    omega

def statementOf? : Except Fault Node → Option Node
  | .ok node => some node
  | .error _ => none

def faultOf? : Except Fault Node → Option Fault
  | .ok _ => none
  | .error fault => some fault

/-- The diagnostic of a fault.  The end of the tokens has no line of its own and takes that of the
last token. -/
def Fault.diagnostic (lastLine : Int) (fault : Fault) : Diagnostic :=
  match fault.cause, fault.rest with
  | .tooDeep, [] => .atLine lastLine Cause.tooDeep.message
  | .tooDeep, t :: _ => .atLine t.line Cause.tooDeep.message
  | cause, [] => .atToken Token.ending cause.message (some lastLine)
  | cause, t :: _ => .atToken t cause.message none

/-- The line that the end of the tokens takes. -/
def lastLine (ts : List Token) : Int := (ts.getLast?.map Token.line).getD 1

/-- Read the tokens in front of the end. -/
def read (ts : List Token) : Reading :=
  let passes := passes ruleLimit ts
  ⟨passes.filterMap statementOf?, (passes.filterMap faultOf?).map (Fault.diagnostic (lastLine ts))⟩

/-- The tokens in front of the first one that ends the text. -/
def body (ts : List Token) : List Token := ts.takeWhile fun t => t.kind != .endOfInput

/-- Read a list of tokens; it has to close with the token that ends a text. -/
def readTokens? (ts : List Token) : Option Reading :=
  if ts.getLast?.map Token.kind = some .endOfInput then some (read (body ts)) else none

/-- The message about a list of tokens that does not close. -/
def unclosedMessage : String := "token stream must end with an EOF token"

end LoxLang.Descent
