/-
# LoxLang.Proofs.DecodedTrees -- trees of a text and of JSON come back

Trees come from two sides: a front end reads them in a text, or they are decoded from JSON,
where parts may be missing and programs may stand inside one another.  Decoding fills in
what is left out and converts numbers, and it keeps what stands in the place of a text.  If
a text stands there each time (`Draft.textual`), it makes nothing that encoding cannot write.

Such a draft within the limit of saving is saved and comes back, and the saved form is a
normal form: decoding and saving it again changes nothing.  Both conditions are needed.  A
real that is no number of the language is saved as a word, and then it is one.  And a sum
nests as deep as it is long, while the descent front end reads sums of any length.
-/
import LoxLang.Proofs.TreeCodec

namespace LoxLang

set_option autoImplicit false

/-! ## Trees that come back -/

namespace Draft

/-- Whether a text stands in each place for one: as name, as lexeme, as content of a string, and as
literal of a token that is no number, unless it is null. -/
def textual (draft : Draft) : Bool := draft.node?.isSome

/-- The drafts there are: that of the program that a front end reads, whatever is wrong with the rest
of the text, and what is decoded from JSON with texts where they belong. -/
inductive Arises : Draft → Prop where
  | read (frontEnd : FrontEnd) (source : String) :
      Arises (Node.block (frontEnd.read source).statements).toDraft
  | decoded {value : Json} {draft : Draft} (decoded : ofJson value = .ok draft) (textual : draft.textual) :
      Arises draft

theorem Arises.sound {draft : Draft} (arises : draft.Arises) : draft.Sound := by
  cases arises with
  | read frontEnd source => exact frontEnd.sound_of_read source
  | decoded _ textual =>
      obtain ⟨node, found⟩ := Option.isSome_iff_exists.mp textual
      exact sound_of_node? draft found

/-- Decode a value and save its draft, if both succeed. -/
def recode (value : Json) : Option Json :=
  match ofJson value with
  | .ok draft => draft.save.toOption
  | .error _ => none

theorem recode_eq {value saved : Json} {draft : Draft} (decoded : ofJson value = .ok draft)
    (saves : draft.save = .ok saved) : recode value = some saved := by
  rw [recode, decoded]
  simp only [saves, Except.toOption]

/-- **Saved trees come back.**  A tree that a front end reads, or that is decoded and has texts where
they belong, is saved if it is within the limit; decoding gives it back as it was in every field.  (A
float that is not a number is one value, equal to itself.)  So what is saved is the normal form of all
the values that decode to the tree, its own included. -/
theorem saved_trees_come_back {draft : Draft} (arises : draft.Arises) (shallow : draft.depth ≤ saveLimit) :
    ∃ normal, draft.save = .ok normal ∧ ofJson normal = .ok draft ∧
      (∀ value, ofJson value = .ok draft → recode value = some normal) ∧
      recode normal = some normal := by
  have saves := arises.sound.save_of_depth_le shallow
  have back := arises.sound.ofJson_toJson
  exact ⟨draft.toJson, saves, back, fun value decoded => recode_eq decoded saves, recode_eq back saves⟩

/-- A missing statement and a program inside a program, with a token that has no line and carries a
number that JSON has no form for. -/
theorem nested_program_comes_back :
    let token : Json := .object [("type", .string "NUMBER"), ("lexeme", .string "x"),
      ("literal", .string " NaN ")]
    let inner : Json := .object [("body", .array [.object [("right", .null), ("operator", token),
      ("type", .string "Unary")]]), ("type", .string "Program")]
    let value : Json := .object [("type", .string "Program"), ("body", .array [.null, inner])]
    let draft : Draft := .block [.missing, .block [.unary
      ⟨.number, .string "x", .real (Float.ofBits 0x7ff8000000000000), 0⟩ .missing]]
    ofJson value = .ok draft ∧ draft.textual ∧ draft.depth ≤ saveLimit ∧
      ∃ normal, draft.save = .ok normal ∧ ofJson normal = .ok draft ∧ recode value = some normal ∧
        recode normal = some normal := by
  intro token inner value draft
  have decoded : ofJson value = .ok draft := by rfl
  have textual : draft.textual := by rfl
  have shallow : draft.depth ≤ saveLimit := by decide
  obtain ⟨normal, saves, back, others, again⟩ := saved_trees_come_back (.decoded decoded textual) shallow
  exact ⟨decoded, textual, shallow, normal, saves, back, others value decoded, again⟩

/-- Without a text in its place an infinite literal of a minus sign is saved as the word for it. -/
example :
    let draft (literal : Json) : Draft := .unary ⟨.minus, .string "-", literal, 0⟩ .missing
    (draft (.real (Float.ofBits 0x7ff0000000000000))).save = (draft (.string "inf")).save := by rfl

end Draft

/-! ## Trees beyond the limit -/

namespace Sum

open LoxLang.Derivation

/-- The rest of a sum behind its first number: `n` more of them and a semicolon. -/
def behind : Nat → List Char
  | 0 => [';']
  | n + 1 => '+' :: '1' :: behind n

/-- The text `1+1+…+1;` with `n` plus signs. -/
def source (n : Nat) : String := String.ofList ('1' :: behind n)

def one : Token := ⟨.number, "1", some (.number (Lexeme.numberValue ['1'] [])), 1⟩

def plus : Token := ⟨.plus, "+", none, 1⟩

def semicolon : Token := ⟨.semicolon, ";", none, 1⟩

def operand : Tree .factor := .level rfl (.primary (.atom one (.number rfl))) .done

def further : Nat → Further .term .factor
  | 0 => .done
  | n + 1 => .step ⟨plus, by decide⟩ operand (further n)

/-- The derivation of a sum. -/
def program (n : Nat) : Program :=
  [.expression (.expression (.level rfl (.level rfl (.level rfl operand (further n)) .done) .done))
    ⟨semicolon, rfl⟩]

theorem cut_one (n : Nat) :
    Segment.cut ('1' :: behind n) =
      ⟨.token .number (some (.number (Lexeme.numberValue ['1'] []))), ['1']⟩ :: Segment.cut (behind n) := by
  rw [Segment.cut]
  cases n <;> rfl

theorem cut_plus (n : Nat) :
    Segment.cut (behind (n + 1)) = ⟨.token .plus none, ['+']⟩ :: Segment.cut ('1' :: behind n) := by
  rw [behind, Segment.cut]
  rfl

/-- Behind its first number a sum is scanned as plus signs and numbers. -/
theorem scan_behind (n : Nat) :
    Segment.tokens 1 (Segment.cut (behind n)) = (further n).yield ++ [semicolon] ∧
      Segment.faults 1 (Segment.cut (behind n)) = [] := by
  induction n with
  | zero => decide +kernel
  | succ n ih =>
      obtain ⟨tokens, faults⟩ := ih
      rw [cut_plus, cut_one]
      constructor
      · show plus :: one :: Segment.tokens 1 (Segment.cut (behind n)) = _
        rw [tokens]
        rfl
      · exact faults

theorem height_further (n : Nat) : (further n).height ≤ operand.height := by
  induction n with
  | zero => exact Nat.zero_le _
  | succ n ih => exact Nat.max_le.mpr ⟨Nat.le_refl _, ih⟩

/-- The height of a sum does not depend on its length. -/
theorem height_program (n : Nat) : (program n).height ≤ Descent.ruleLimit := by
  have whole : (program n).height = max operand.height (further n).height + 4 := rfl
  have one : operand.height = 3 := rfl
  have many := height_further n
  have limit : Descent.ruleLimit = 1000 := rfl
  omega

/-- The descent front end reads sums of any length. -/
theorem read_source (n : Nat) : FrontEnd.descent.read (source n) = ⟨(program n).ast, []⟩ := by
  obtain ⟨tokens, faults⟩ := scan_behind n
  have scanned : Segment.tokens 1 (Segment.cut (source n).toList) = (program n).yield := by
    rw [source, String.toList_ofList, cut_one]
    show one :: Segment.tokens 1 (Segment.cut (behind n)) = _
    rw [tokens]
    simp [program, Program.yield, Declaration.yield, Tree.yield, Further.yield, operand]
  have clean : Segment.faults 1 (Segment.cut (source n).toList) = [] := by
    rw [source, String.toList_ofList, cut_one]
    exact faults
  rw [FrontEnd.read_descent, scanned, clean, Descent.read_yield (height_program n)]
  rfl

theorem depth_operand : operand.ast.depth = 1 := rfl

theorem depth_fold (n : Nat) {left : Node} (present : 1 ≤ left.depth) :
    ((further n).fold left).depth = left.depth + n := by
  induction n generalizing left with
  | zero => rfl
  | succ n ih =>
      have deeper : (Node.binary left plus operand.ast).depth = left.depth + 1 := by
        rw [Node.depth, depth_operand, Nat.max_eq_left present]
      show ((further n).fold (.binary left plus operand.ast)).depth = _
      rw [ih (by omega), deeper]
      omega

/-- The tree of a sum nests as deep as the sum is long. -/
theorem depth_program (n : Nat) : (Node.block (program n).ast).depth = n + 3 := by
  have whole : (Node.block (program n).ast).depth =
      max (((further n).fold operand.ast).depth + 1) 0 + 1 := rfl
  rw [whole, depth_fold n depth_operand.ge, depth_operand]
  omega

end Sum

namespace Node

mutual

/-- A draft nests as deep as its tree. -/
theorem depth_toDraft : (node : Node) → node.toDraft.depth = node.depth
  | .binary left operator right => by
      simp only [toDraft, Draft.depth, Node.depth, depth_toDraft left, depth_toDraft right]
  | .unary operator operand => by simp only [toDraft, Draft.depth, Node.depth, depth_toDraft operand]
  | .grouping inner => by simp only [toDraft, Draft.depth, Node.depth, depth_toDraft inner]
  | .expression value => by simp only [toDraft, Draft.depth, Node.depth, depth_toDraft value]
  | .print value => by simp only [toDraft, Draft.depth, Node.depth, depth_toDraft value]
  | .declaration name initializer line => by
      simp only [toDraft, Draft.depth, Node.depth, depth_toDraft initializer]
  | .literal _ => rfl
  | .hollow _ => rfl
  | .reference _ _ => rfl
  | .missing => rfl
  | .block statements => by simp only [toDraft, Draft.depth, Node.depth, depthList_toDrafts statements]

theorem depthList_toDrafts : (nodes : List Node) → Draft.depthList (toDrafts nodes) = depthList nodes
  | [] => rfl
  | node :: rest => by
      simp only [toDrafts, Draft.depthList, depthList, depth_toDraft node, depthList_toDrafts rest]

end

end Node

/-- A sum of 1301 numbers is read without a diagnostic, but its tree is beyond the limit. -/
theorem Draft.long_sum_is_not_saved :
    let reading := FrontEnd.descent.read (Sum.source 1300)
    let draft := (Node.block reading.statements).toDraft
    reading.diagnostics = [] ∧ draft.Arises ∧ draft.save = .error .tooDeep := by
  intro reading draft
  refine ⟨congrArg Reading.diagnostics (Sum.read_source 1300), .read .descent _, ?_⟩
  have deep : draft.depth = 1303 := by
    show (Node.block (FrontEnd.descent.read (Sum.source 1300)).statements).toDraft.depth = 1303
    rw [Node.depth_toDraft, Sum.read_source]
    exact Sum.depth_program 1300
  have limit : saveLimit = 1000 := rfl
  rw [save, if_pos (by omega)]

end LoxLang
