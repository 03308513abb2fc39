/-
# LoxLang.Proofs.FrontEndAgreement -- the two front ends agree

Both front ends decide the same grammar, each on its own tokens: one by recursive descent
(`LoxLang.Proofs.DescentGrammar`), one with a stack (`LoxLang.Proofs.StackGrammar`).  Their
tokens differ in the lines of strings at most (`LoxLang.Proofs.StreamTokens`), which no
syntax tree keeps.  So what derives a program for the one derives it for the other, with
the same syntax tree.

Each front end has a limit of its own on nesting.  A text that only one of them finds too
deep is the only kind on which they part.
-/
import LoxLang.FrontEnd
import LoxLang.Proofs.DescentGrammar
import LoxLang.Proofs.StackGrammar
import LoxLang.Proofs.StreamTokens

namespace LoxLang

open LoxLang.Derivation

set_option autoImplicit false

/-! ## Scanned tokens -/

/-- No text is scanned as the token that ends texts. -/
theorem kind_first_ne_ending (c : Char) (cs : List Char) (literal : Option Literal) :
    (Segment.first c cs).kind ≠ .token .endOfInput literal := by
  intro same
  unfold Segment.first at same
  split at same
  · rename_i kind single
    unfold Lexeme.single? at single
    split at single <;> cases single <;> cases same
  · rename_i doubled alone noSingle paired
    unfold Lexeme.paired? at paired
    split at paired <;> cases paired <;> split at same <;> cases same
  · repeat' split at same
    · cases same
    · cases same
    · cases same
    · unfold Segment.string at same
      split at same <;> cases same
    · cases same
    · unfold Segment.word at same
      split at same
      · rename_i kind keyword
        unfold TokenKind.keyword? at keyword
        split at keyword <;> cases keyword <;> cases same
      · cases same
    · cases same

theorem kind_scanned_ne_ending (line : Nat) (cs : List Char) :
    ∀ t ∈ Segment.tokens line (Segment.cut cs), t.kind ≠ .endOfInput := by
  fun_induction Segment.cut cs generalizing line with
  | case1 =>
      intro t member
      cases member
  | case2 c cs s ih =>
      rw [Segment.tokens, List.forall_mem_append]
      refine ⟨fun t member => ?_, ih _⟩
      have token := Option.mem_toList.mp member
      unfold Segment.token? at token
      split at token
      · rename_i kind literal isToken
        cases token
        rintro rfl
        exact kind_first_ne_ending c cs literal isToken
      · cases token

namespace FrontEnd

/-- The descent front end reads the scanned tokens behind the faults of the scan. -/
theorem read_descent (source : String) :
    FrontEnd.descent.read source =
      ⟨(Descent.read (Segment.tokens 1 (Segment.cut source.toList))).statements,
        Segment.faults 1 (Segment.cut source.toList) ++
          (Descent.read (Segment.tokens 1 (Segment.cut source.toList))).diagnostics⟩ := by
  have inside := kind_scanned_ne_ending 1 source.toList
  have whole : Descent.body (scan source).tokens = Segment.tokens 1 (Segment.cut source.toList) :=
    Descent.body_append inside rfl
  rw [FrontEnd.read, whole]
  rfl

/-! ## From one front end to the other -/

/-- A program that the descent front end reads is the one that the stream front end reads, unless it
is too deep for the latter. -/
theorem stream_of_descent {source : String} (noFormFeed : '\x0c' ∉ source.toList)
    (clean : (FrontEnd.descent.read source).diagnostics = []) :
    FrontEnd.stream.read source = ⟨(FrontEnd.descent.read source).statements, []⟩ ∨
      ∃ line, FrontEnd.stream.read source = ⟨[], [.atLine line tooDeepMessage]⟩ := by
  rw [read_descent] at clean ⊢
  obtain ⟨scanned, parsed⟩ := List.append_eq_nil_iff.mp clean
  obtain ⟨p, yields, bound⟩ := (Descent.diagnostics_eq_nil_iff _).mp parsed
  have statements : (Descent.read (Segment.tokens 1 (Segment.cut source.toList))).statements = p.ast := by
    rw [← yields, Descent.read_yield bound]
  have used : ∀ t ∈ Segment.tokens 1 (Segment.cut source.toList), t.kind ∉ Stream.unusedKinds := by
    have apart : ∀ kind ∈ Declaration.kinds, kind ∉ Stream.unusedKinds := by decide
    intro t member
    rw [← yields] at member
    exact apart _ (p.kind_mem t member)
  have whole := Stream.lex_complete source.toList noFormFeed 1 scanned used
  have tokens := (Stream.lex_sound source.toList noFormFeed 1 whole).2
  have alike : List.Forall₂ Token.Alike (Stream.ofText source).tokens p.yield := by
    rw [yields, tokens, List.forall₂_map_right_iff]
    exact List.forall₂_same.mpr (Stream.alike_atEnd 1 source.toList)
  obtain ⟨q, yields', ast⟩ := p.retell _ alike
  show ShiftReduce.read (Stream.ofText source) = _ ∨ _
  rw [statements, ← ast]
  exact ShiftReduce.read_yield whole yields'

/-- A program that the stream front end reads is the one that the descent front end reads, unless it
is too deep for the latter. -/
theorem descent_of_stream {source : String} (noFormFeed : '\x0c' ∉ source.toList)
    (clean : (FrontEnd.stream.read source).diagnostics = []) :
    FrontEnd.descent.read source = ⟨(FrontEnd.stream.read source).statements, []⟩ ∨
      ∃ d ∈ (FrontEnd.descent.read source).diagnostics, d.message = (tooDeepMessage : Text) := by
  obtain ⟨whole, q, yields, statements⟩ := ShiftReduce.read_sound clean
  obtain ⟨scanned, tokens⟩ := Stream.lex_sound source.toList noFormFeed 1 whole
  have alike : List.Forall₂ Token.Alike (Segment.tokens 1 (Segment.cut source.toList)) q.yield := by
    rw [tokens, yields, List.forall₂_map_left_iff]
    refine List.forall₂_same.mpr fun t member => ?_
    exact (Stream.alike_atEnd 1 source.toList t member).symm
  obtain ⟨p, yields', ast⟩ := q.retell _ alike
  rw [read_descent, scanned, ← yields', List.nil_append]
  show _ = Reading.mk (ShiftReduce.read (Stream.ofText source)).statements [] ∨ _
  rw [statements, ← ast]
  rcases Descent.passes_yield Descent.ruleLimit p with ⟨bound, -⟩ | ⟨-, us, fails⟩
  · rw [Descent.read_yield bound]
    exact .inl rfl
  · refine .inr ⟨_, Descent.diagnostic_mem fails, ?_⟩
    cases us <;> rfl

/-- **The front ends agree.**  On a text without form feeds that neither front end finds too deep,
one of them reports nothing exactly if the other does, and then they return the same statements. -/
theorem front_ends_agree (source : String) (noFormFeed : '\x0c' ∉ source.toList)
    (shallow : ∀ frontEnd : FrontEnd, ∀ d ∈ (frontEnd.read source).diagnostics,
      d.message ≠ (tooDeepMessage : Text)) :
    ((FrontEnd.descent.read source).diagnostics = [] ↔
        (FrontEnd.stream.read source).diagnostics = []) ∧
      ((FrontEnd.descent.read source).diagnostics = [] →
        (FrontEnd.descent.read source).statements = (FrontEnd.stream.read source).statements) := by
  have forward (clean : (FrontEnd.descent.read source).diagnostics = []) :
      FrontEnd.stream.read source = ⟨(FrontEnd.descent.read source).statements, []⟩ := by
    rcases stream_of_descent noFormFeed clean with same | ⟨line, deep⟩
    · exact same
    · have reported : .atLine line tooDeepMessage ∈ (FrontEnd.stream.read source).diagnostics := by
        rw [deep]
        exact List.mem_cons_self
      exact absurd rfl (shallow .stream _ reported)
  refine ⟨⟨fun clean => ?_, fun clean => ?_⟩, fun clean => ?_⟩
  · rw [forward clean]
  · rcases descent_of_stream noFormFeed clean with same | ⟨d, reported, deep⟩
    · rw [same]
    · exact absurd deep (shallow .descent d reported)
  · rw [forward clean]

/-- A program with a string over two lines, which both front ends read, and a text with a fault behind
such a string, which both refuse. -/
theorem front_ends_agree_over_two_lines :
    let accepted := "var x = -(1.5 < 2);\nprint \"a\nb\" == x; // done"
    let refused := "print \"a\nb\" +;"
    ('\x0c' ∉ accepted.toList ∧
      (∀ frontEnd : FrontEnd, ∀ d ∈ (frontEnd.read accepted).diagnostics,
        d.message ≠ (tooDeepMessage : Text)) ∧
      (FrontEnd.descent.read accepted).diagnostics = [] ∧
      (FrontEnd.stream.read accepted).diagnostics = [] ∧
      (FrontEnd.descent.read accepted).statements = (FrontEnd.stream.read accepted).statements) ∧
    '\x0c' ∉ refused.toList ∧
      (∀ frontEnd : FrontEnd, ∀ d ∈ (frontEnd.read refused).diagnostics,
        d.message ≠ (tooDeepMessage : Text)) ∧
      (FrontEnd.descent.read refused).diagnostics ≠ [] ∧
      (FrontEnd.stream.read refused).diagnostics ≠ [] := by
  intro accepted refused
  have plain : '\x0c' ∉ accepted.toList := by decide
  have plain' : '\x0c' ∉ refused.toList := by decide
  have shallow : ∀ frontEnd : FrontEnd, ∀ d ∈ (frontEnd.read accepted).diagnostics,
      d.message ≠ (tooDeepMessage : Text) := by
    intro frontEnd
    cases frontEnd <;> decide +kernel
  have shallow' : ∀ frontEnd : FrontEnd, ∀ d ∈ (frontEnd.read refused).diagnostics,
      d.message ≠ (tooDeepMessage : Text) := by
    intro frontEnd
    cases frontEnd <;> decide +kernel
  have clean : (FrontEnd.descent.read accepted).diagnostics = [] := by decide +kernel
  have faulty : (FrontEnd.descent.read refused).diagnostics ≠ [] := by decide +kernel
  obtain ⟨both, same⟩ := front_ends_agree accepted plain shallow
  obtain ⟨both', -⟩ := front_ends_agree refused plain' shallow'
  exact ⟨⟨plain, shallow, clean, both.mp clean, same clean⟩, plain', shallow', faulty,
    fun none => faulty (both'.mpr none)⟩

end FrontEnd

end LoxLang
