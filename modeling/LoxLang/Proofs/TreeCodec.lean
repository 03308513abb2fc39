/-
# LoxLang.Proofs.TreeCodec -- trees come back from JSON

Encoding and decoding are two functions over the same kinds of node, and each part is
inverse to its counterpart: numbers, with words for those that JSON has no form for, then
values and tokens, then drafts by induction.  A draft qualifies if it is `Sound`: its
numbers have values, and a real is the literal of numbers only.  What stands in the place
of a text does not matter.  A draft that stands for a tree is sound.

The trees that a front end builds are the trees of their drafts.  Their JSON form also goes
through text: lexemes, names and strings are made of characters, and lines are short enough
to be read.
-/
import LoxLang.Node.Codec
import LoxLang.Proofs.JsonText
import LoxLang.Proofs.Statements

namespace LoxLang

open Json

set_option autoImplicit false

/-! ## Numbers, values and tokens -/

theorem Text.string?_ofString (s : String) : (ofString s).string? = some s := by
  have all : (ofString s).all CodePoint.isChar := by
    simp [ofString, ofChars, CodePoint.isChar]
  rw [string?, if_pos all, shown, chars_ofString, String.ofList_toList]

namespace Rounding

theorem eq_of_isNaN {x : Float} (undefined : x.isNaN) : x = Float.ofBits 0x7ff8000000000000 := by
  have undefined : (parts x).isNaN := undefined
  apply parts_injective
  cases same : parts x with
  | notANumber => rfl
  | _ => rw [same] at undefined; cases undefined

theorem abs_of_isInf {x : Float} (infinite : x.isInf) : x.abs = Float.ofBits 0x7ff0000000000000 := by
  have infinite : (parts x).isInf := infinite
  apply parts_injective
  rw [parts_abs]
  cases same : parts x with
  | infinity s => cases s <;> rfl
  | _ => rw [same] at infinite; cases infinite

end Rounding

namespace Number

/-- A number is read from its JSON form, also where JSON has no number for it. -/
theorem toFloat_toJson (x : Float) : (toJson x).toFloat = .ok x := by
  unfold toJson
  by_cases undefined : x.isNaN
  · rw [undefined, Bool.true_or, if_pos rfl]
    have word : Number.literal x = "nan" := by rw [Number.literal, if_pos undefined]
    rw [word, Rounding.eq_of_isNaN undefined]
    rfl
  · have number : x.isNaN = false := by simpa using undefined
    by_cases infinite : x.isInf
    · rw [number, infinite, Bool.or_true, if_pos rfl]
      have word : Number.literal x = if floatSign x then "-inf" else "inf" := by
        rw [Number.literal, if_neg undefined, if_pos infinite]
        rfl
      have value := Rounding.signed_abs number
      rw [Rounding.abs_of_isInf infinite] at value
      rw [word]
      by_cases negative : floatSign x
      · rw [if_pos negative] at value ⊢
        rw [← value]
        rfl
      · rw [if_neg negative] at value ⊢
        rw [← value]
        rfl
    · have bounded : x.isInf = false := by simpa using infinite
      rw [number, bounded]
      rfl

end Number

/-- A value that can be saved: if it is a number, there is one. -/
def DraftValue.Full : DraftValue → Prop
  | .number x => x.isSome
  | _ => True

/-- A value is read from its JSON form. -/
theorem DraftValue.toValue_toJson {v : DraftValue} (full : v.Full) : v.toJson.toValue = .ok v := by
  cases v with
  | number x =>
      obtain ⟨x, rfl⟩ := Option.isSome_iff_exists.mp full
      have step : (DraftValue.number (some x)).toJson.toValue =
          (do return .number (some (← (Number.toJson x).toFloat))) := rfl
      rw [step, Number.toFloat_toJson]
      rfl
  | string content => rfl
  | boolean b => cases b <;> rfl
  | nil => rfl

/-- Different kinds have different names. -/
theorem TokenKind.ofName?_name (kind : TokenKind) : ofName? kind.name = some kind := by
  have listed : kind ∈ all := by cases kind <;> decide
  have each : ∀ kind ∈ all, ofName? kind.name = some kind := by decide +kernel
  exact each kind listed

theorem Json.toTokenKind_name (kind : TokenKind) : toTokenKind (.string kind.name) = .ok kind := by
  rw [toTokenKind, Text.string?_ofString, Option.bind_some, TokenKind.ofName?_name]

namespace DraftToken

/-- A token whose literal is one of its kind: a real for a number, and no real for the others. -/
def Coherent (t : DraftToken) : Prop :=
  match t.literal with
  | .null => True
  | .real _ => t.kind = .number
  | _ => t.kind ≠ .number

theorem toLiteral_literalToJson {t : DraftToken} (coherent : t.Coherent) :
    toLiteral t.kind (literalToJson t.literal) = .ok t.literal := by
  obtain ⟨kind, lexeme, literal, line⟩ := t
  cases literal with
  | null => rfl
  | real x =>
      obtain rfl : kind = .number := coherent
      have step : toLiteral .number (Number.toJson x) = (do return .real (← (Number.toJson x).toFloat)) := by
        unfold Number.toJson
        split <;> rfl
      show toLiteral .number (Number.toJson x) = _
      rw [step, Number.toFloat_toJson]
      rfl
  | _ => exact if_neg coherent

/-- A token is read from its JSON form. -/
theorem toToken_toJson {t : DraftToken} (coherent : t.Coherent) : t.toJson.toToken = .ok t := by
  obtain ⟨kind, lexeme, literal, line⟩ := t
  have step : (DraftToken.mk kind lexeme literal line).toJson.toToken = (do
      let kind ← toTokenKind (.string kind.name)
      let literal ← toLiteral kind (literalToJson literal)
      return ⟨kind, lexeme, literal, line⟩) := rfl
  rw [step, toTokenKind_name]
  have carried : toLiteral kind (literalToJson literal) = .ok literal := toLiteral_literalToJson coherent
  show (do
      let literal ← toLiteral kind (literalToJson literal)
      return DraftToken.mk kind lexeme literal line) = _
  rw [carried]
  rfl

end DraftToken

/-! ## Drafts -/

namespace Draft

/-- A draft whose numbers have values, and in which a real is the literal of numbers only. -/
inductive Sound : Draft → Prop where
  | binary {left right : Draft} {operator : DraftToken} (first : Sound left) (coherent : operator.Coherent)
      (second : Sound right) : Sound (.binary left operator right)
  | unary {operator : DraftToken} {operand : Draft} (coherent : operator.Coherent)
      (inner : Sound operand) : Sound (.unary operator operand)
  | grouping {inner : Draft} (value : Sound inner) : Sound (.grouping inner)
  | literal {value : DraftValue} (full : value.Full) : Sound (.literal value)
  | reference {name : Json} {line : Int} : Sound (.reference name line)
  | expression {value : Draft} (inner : Sound value) : Sound (.expression value)
  | print {value : Draft} (inner : Sound value) : Sound (.print value)
  | declaration {name : Json} {initializer : Draft} {line : Int} (inner : Sound initializer) :
      Sound (.declaration name initializer line)
  | missing : Sound .missing
  | block {statements : List Draft} (each : ∀ s ∈ statements, Sound s) : Sound (.block statements)

theorem toJsonList_eq_map (statements : List Draft) : toJsonList statements = statements.map toJson := by
  induction statements with
  | nil => rfl
  | cons draft rest ih => rw [toJsonList, ih, List.map_cons]

theorem mapM_decode {fuel : Nat} {statements : List Draft}
    (each : ∀ s ∈ statements, decode fuel s.toJson = .ok s) :
    (toJsonList statements).mapM (decode fuel) = .ok statements := by
  induction statements with
  | nil => rfl
  | cons s rest ih =>
      rw [toJsonList, List.mapM_cons, each s List.mem_cons_self,
        ih fun t member => each t (List.mem_cons_of_mem s member)]
      rfl

/-- **Decoding undoes encoding** on sound drafts. -/
theorem decode_toJson {draft : Draft} (sound : Sound draft) {fuel : Nat}
    (enough : draft.toJson.depth < fuel) : decode fuel draft.toJson = .ok draft := by
  induction fuel generalizing draft with
  | zero => exact absurd enough (Nat.not_lt_zero _)
  | succ fuel ih =>
      cases sound with
      | @binary left right operator first coherent second =>
          simp only [toJson, Json.depth, depthFields, depthField] at enough
          have step : decode (fuel + 1) (toJson (.binary left operator right)) = (do
              let left ← decode fuel left.toJson
              let operator ← operator.toJson.toToken
              let right ← decode fuel right.toJson
              return .binary left operator right) := rfl
          rw [step, ih first (by omega), DraftToken.toToken_toJson coherent, ih second (by omega)]
          rfl
      | @unary operator operand coherent inner =>
          simp only [toJson, Json.depth, depthFields, depthField] at enough
          have step : decode (fuel + 1) (toJson (.unary operator operand)) = (do
              let operator ← operator.toJson.toToken
              let operand ← decode fuel operand.toJson
              return .unary operator operand) := rfl
          rw [step, DraftToken.toToken_toJson coherent, ih inner (by omega)]
          rfl
      | @grouping value inner =>
          simp only [toJson, Json.depth, depthFields, depthField] at enough
          have step : decode (fuel + 1) (toJson (.grouping value)) =
              (do return .grouping (← decode fuel value.toJson)) := rfl
          rw [step, ih inner (by omega)]
          rfl
      | @literal value full =>
          have step : decode (fuel + 1) (toJson (.literal value)) =
              (do return .literal (← value.toJson.toValue)) := rfl
          rw [step, DraftValue.toValue_toJson full]
          rfl
      | reference => rfl
      | @expression value inner =>
          simp only [toJson, Json.depth, depthFields, depthField] at enough
          have step : decode (fuel + 1) (toJson (.expression value)) =
              (do return .expression (← decode fuel value.toJson)) := rfl
          rw [step, ih inner (by omega)]
          rfl
      | @print value inner =>
          simp only [toJson, Json.depth, depthFields, depthField] at enough
          have step : decode (fuel + 1) (toJson (.print value)) =
              (do return .print (← decode fuel value.toJson)) := rfl
          rw [step, ih inner (by omega)]
          rfl
      | @declaration name initializer line inner =>
          simp only [toJson, Json.depth, depthFields, depthField] at enough
          have step : decode (fuel + 1) (toJson (.declaration name initializer line)) = (do
              let initializer ← decode fuel initializer.toJson
              return .declaration name initializer line) := rfl
          rw [step, ih inner (by omega)]
          rfl
      | missing => rfl
      | @block statements each =>
          simp only [toJson, Json.depth, depthFields, depthField] at enough
          have step : decode (fuel + 1) (toJson (.block statements)) =
              (do return .block (← (toJsonList statements).mapM (decode fuel))) := rfl
          have all : ∀ s ∈ statements, decode fuel s.toJson = .ok s := by
            intro s member
            have listed : s.toJson ∈ toJsonList statements := by
              rw [toJsonList_eq_map]
              exact List.mem_map_of_mem member
            have below := depth_le_depthItems listed
            exact ih (each s member) (by omega)
          rw [step, mapM_decode all]
          rfl

theorem someLacksNumber_eq_false {statements : List Draft} (each : ∀ s ∈ statements, s.lacksNumber = false) :
    someLacksNumber statements = false := by
  induction statements with
  | nil => rfl
  | cons s rest ih =>
      rw [someLacksNumber, each s List.mem_cons_self,
        ih fun t member => each t (List.mem_cons_of_mem s member)]
      rfl

theorem depthList_le {statements : List Draft} (each : ∀ s ∈ statements, s.depth ≤ s.toJson.depth) :
    depthList statements ≤ depthItems (toJsonList statements) := by
  induction statements with
  | nil => exact le_rfl
  | cons s rest ih =>
      rw [depthList, toJsonList, depthItems]
      exact max_le_max (each s List.mem_cons_self) (ih fun t member => each t (List.mem_cons_of_mem s member))

namespace Sound

variable {draft : Draft} (sound : Sound draft)

include sound

theorem ofJson_toJson : ofJson draft.toJson = .ok draft := decode_toJson sound (Nat.lt_succ_self _)

/-- Every number of a sound draft has a value. -/
theorem lacksNumber : draft.lacksNumber = false := by
  induction sound with
  | binary _ _ _ first second => rw [Draft.lacksNumber, first, second]; rfl
  | unary _ _ inner => exact inner
  | grouping _ value => exact value
  | @literal value full =>
      cases value with
      | number x =>
          obtain ⟨x, rfl⟩ := Option.isSome_iff_exists.mp full
          rfl
      | _ => rfl
  | reference => rfl
  | expression _ inner => exact inner
  | print _ inner => exact inner
  | declaration _ inner => exact inner
  | missing => rfl
  | block _ each => exact someLacksNumber_eq_false each

/-- JSON nests at least as deep as the draft. -/
theorem depth_le : draft.depth ≤ draft.toJson.depth := by
  induction sound with
  | block _ each =>
      have inner := depthList_le each
      simp only [Draft.depth, toJson, Json.depth, depthFields, depthField]
      omega
  | _ =>
      simp only [Draft.depth, toJson, Json.depth, depthFields, depthField]
      omega

/-- A draft within the limit is saved as its JSON form. -/
theorem save_of_depth_le (shallow : draft.depth ≤ saveLimit) : draft.save = .ok draft.toJson := by
  rw [save, if_neg (by omega), sound.lacksNumber]
  rfl

theorem save_eq (shallow : draft.toJson.depth ≤ saveLimit) : draft.save = .ok draft.toJson :=
  sound.save_of_depth_le (sound.depth_le.trans shallow)

end Sound

end Draft

/-! ## Drafts of trees -/

theorem DraftToken.coherent_of_token? {t : DraftToken} {token : Token} (found : t.token? = some token) :
    t.Coherent := by
  obtain ⟨kind, lexeme, literal, line⟩ := t
  simp only [token?, Option.bind_eq_bind, Option.bind_eq_some_iff] at found
  obtain ⟨_, -, carried, found, -⟩ := found
  cases literal with
  | null => trivial
  | real x =>
      by_contra other
      have other : kind ≠ .number := other
      simp only [literal?, if_neg other] at found
      cases found
  | string s =>
      intro number
      have number : kind = .number := number
      simp only [literal?, if_pos number] at found
      cases found
  | _ => cases found

theorem DraftValue.full_of_value? {v : DraftValue} {value : Value} (found : v.value? = some value) :
    v.Full := by
  cases v with
  | number x =>
      obtain ⟨x, rfl, -⟩ := Option.map_eq_some_iff.mp found
      rfl
  | _ => trivial

namespace Draft

mutual

/-- A draft that stands for a tree is sound. -/
theorem sound_of_node? : (draft : Draft) → {node : Node} → draft.node? = some node → draft.Sound
  | .binary left operator right, node, found => by
      simp only [node?, Option.bind_eq_bind, Option.bind_eq_some_iff] at found
      obtain ⟨_, first, _, token, _, second, -⟩ := found
      exact .binary (sound_of_node? left first) (DraftToken.coherent_of_token? token)
        (sound_of_node? right second)
  | .unary operator operand, node, found => by
      simp only [node?, Option.bind_eq_bind, Option.bind_eq_some_iff] at found
      obtain ⟨_, token, _, inner, -⟩ := found
      exact .unary (DraftToken.coherent_of_token? token) (sound_of_node? operand inner)
  | .grouping inner, node, found => by
      obtain ⟨_, value, -⟩ := Option.bind_eq_some_iff.mp found
      exact .grouping (sound_of_node? inner value)
  | .literal value, node, found => by
      obtain ⟨_, value, -⟩ := Option.bind_eq_some_iff.mp found
      exact .literal (DraftValue.full_of_value? value)
  | .reference _ _, _, _ => .reference
  | .expression value, node, found => by
      obtain ⟨_, inner, -⟩ := Option.bind_eq_some_iff.mp found
      exact .expression (sound_of_node? value inner)
  | .print value, node, found => by
      obtain ⟨_, inner, -⟩ := Option.bind_eq_some_iff.mp found
      exact .print (sound_of_node? value inner)
  | .declaration name initializer line, node, found => by
      simp only [node?, Option.bind_eq_bind, Option.bind_eq_some_iff] at found
      obtain ⟨_, -, _, inner, -⟩ := found
      exact .declaration (sound_of_node? initializer inner)
  | .missing, _, _ => .missing
  | .block statements, node, found => by
      obtain ⟨_, each, -⟩ := Option.bind_eq_some_iff.mp found
      exact .block (sound_of_nodes? statements each)

theorem sound_of_nodes? : (drafts : List Draft) → {nodes : List Node} → nodes? drafts = some nodes →
    ∀ draft ∈ drafts, draft.Sound
  | [], _, _ => nofun
  | draft :: rest, nodes, found => by
      simp only [nodes?, Option.bind_eq_bind, Option.bind_eq_some_iff] at found
      obtain ⟨_, here, _, later, -⟩ := found
      exact List.forall_mem_cons.mpr ⟨sound_of_node? draft here, sound_of_nodes? rest later⟩

end

end Draft

/-! ## Trees of a text -/

namespace Token

/-- A token as written carries what its kind asks for. -/
theorem Written.coherent {t : Token} (written : t.Written) : t.toDraft.Coherent := by
  obtain ⟨kind, lexeme, literal, line⟩ := t
  by_cases text : kind = .string
  · obtain ⟨cs, literal⟩ := written.string text
    cases literal
    exact fun number => absurd (text.symm.trans number) (by decide)
  by_cases name : kind = .identifier
  · obtain rfl : literal = some (.text lexeme) := written.name name
    exact fun number => absurd (name.symm.trans number) (by decide)
  by_cases number : kind = .number
  · obtain ⟨x, literal⟩ := written.number number
    cases literal
    exact number
  · obtain rfl : literal = none := written.bare (by simp [number, text, name])
    trivial

theorem token?_toDraft {t : Token} (coherent : t.toDraft.Coherent) : t.toDraft.token? = some t := by
  obtain ⟨kind, lexeme, literal, line⟩ := t
  have step : (Token.mk kind lexeme literal line).toDraft.token? =
      (Token.mk kind lexeme literal line).toDraft.literal?.map
        fun literal => ⟨kind, lexeme, literal, line⟩ := by
    unfold DraftToken.token?
    cases DraftToken.literal? _ <;> rfl
  rw [step]
  cases literal with
  | none => rfl
  | some literal =>
      cases literal with
      | number x =>
          have number : kind = .number := coherent
          subst number
          rfl
      | text s =>
          have carried : (Token.mk kind lexeme (some (.text s)) line).toDraft.literal? =
              some (some (.text s)) := if_neg coherent
          rw [carried]
          rfl

end Token

theorem Value.value?_toDraft (v : Value) : v.toDraft.value? = some v := by
  cases v <;> rfl

namespace Node

/-- An expression of a text is the tree of its draft. -/
theorem node?_of_isExpression {node : Node} (built : IsExpression Token.Written node) :
    node.toDraft.node? = some node := by
  induction built with
  | atom written stands =>
      rcases written.atom stands with ⟨value, rfl, -⟩ | ⟨-, rfl⟩
      · show (do return Node.literal (← value.toDraft.value?)) = _
        rw [value.value?_toDraft]
        rfl
      · rfl
  | @unary operator operand written _ _ inner =>
      show (do return Node.unary (← operator.toDraft.token?) (← operand.toDraft.node?)) = _
      rw [Token.token?_toDraft written.coherent, inner]
      rfl
  | @binary left right operator _ _ written _ _ _ _ first second =>
      show (do
        return Node.binary (← left.toDraft.node?) (← operator.toDraft.token?) (← right.toDraft.node?)) = _
      rw [first, Token.token?_toDraft written.coherent, second]
      rfl
  | @grouping value _ inner =>
      show (do return Node.grouping (← value.toDraft.node?)) = _
      rw [inner]
      rfl

theorem node?_of_isStatement {node : Node} (built : IsStatement Token.Written node) :
    node.toDraft.node? = some node := by
  cases built with
  | @expression value inner =>
      show (do return Node.expression (← value.toDraft.node?)) = _
      rw [node?_of_isExpression inner]
      rfl
  | @print value inner =>
      show (do return Node.print (← value.toDraft.node?)) = _
      rw [node?_of_isExpression inner]
      rfl
  | bare => rfl
  | @initialized name value _ _ inner =>
      show (do return Node.declaration name.lexeme (← value.toDraft.node?) name.line) = _
      rw [node?_of_isExpression inner]
      rfl

theorem toDrafts_eq_map (nodes : List Node) : toDrafts nodes = nodes.map toDraft := by
  induction nodes with
  | nil => rfl
  | cons node rest ih => rw [toDrafts, ih, List.map_cons]

theorem nodes?_toDrafts {nodes : List Node} (each : ∀ node ∈ nodes, node.toDraft.node? = some node) :
    Draft.nodes? (toDrafts nodes) = some nodes := by
  induction nodes with
  | nil => rfl
  | cons node rest ih =>
      obtain ⟨here, later⟩ := List.forall_mem_cons.mp each
      show (do return (← node.toDraft.node?) :: (← Draft.nodes? (toDrafts rest))) = _
      rw [here, ih later]
      rfl

end Node

/-- The program of a text is the tree of its draft. -/
theorem FrontEnd.nodes?_read (frontEnd : FrontEnd) (source : String) :
    Draft.nodes? (Node.toDrafts (frontEnd.read source).statements) = some (frontEnd.read source).statements :=
  Node.nodes?_toDrafts fun s member => Node.node?_of_isStatement (frontEnd.isStatement_written source s member)

theorem FrontEnd.node?_read (frontEnd : FrontEnd) (source : String) :
    (Node.block (frontEnd.read source).statements).toDraft.node? =
      some (.block (frontEnd.read source).statements) := by
  show (do return Node.block (← Draft.nodes? (Node.toDrafts (frontEnd.read source).statements))) = _
  rw [frontEnd.nodes?_read]
  rfl

theorem FrontEnd.sound_of_read (frontEnd : FrontEnd) (source : String) :
    (Node.block (frontEnd.read source).statements).toDraft.Sound :=
  Draft.sound_of_node? _ (frontEnd.node?_read source)

/-- The program of a text is read from its JSON form. -/
theorem FrontEnd.programOfJson_read (frontEnd : FrontEnd) (source : String) :
    Draft.programOfJson (Node.programToJson (frontEnd.read source).statements) =
      .ok (Node.toDrafts (frontEnd.read source).statements) := by
  have decoded : Draft.ofJson (Node.programToJson (frontEnd.read source).statements) =
      .ok (.block (Node.toDrafts (frontEnd.read source).statements)) :=
    (frontEnd.sound_of_read source).ofJson_toJson
  rw [Draft.programOfJson, decoded]
  rfl

/-! ## Trees in text -/

theorem Text.ofString_injective : Function.Injective Text.ofString := by
  intro s t same
  have chars := congrArg chars same
  rwa [chars_ofString, chars_ofString, String.toList_inj] at chars

namespace Json

theorem writable_word (s : String) : Writable (.string s) := .string s.toList

/-- An object whose fields have different words as names is written if its values are. -/
theorem writable_object {fields : List (Text × Json)} (words : List String)
    (named : fields.map Prod.fst = words.map Text.ofString) (distinct : words.Nodup)
    (each : ∀ field ∈ fields, field.2.Writable) : Writable (.object fields) := by
  refine .object (fun field member => ?_) ?_ each
  · have listed : field.1 ∈ words.map Text.ofString := named ▸ List.mem_map_of_mem member
    obtain ⟨word, -, same⟩ := List.mem_map.mp listed
    exact ⟨word.toList, same.symm⟩
  · rw [named]
    exact distinct.map Text.ofString_injective

end Json

theorem Number.writable_toJson (x : Float) : (Number.toJson x).Writable := by
  unfold Number.toJson
  split
  · exact writable_word _
  · rename_i finite
    simp only [Bool.or_eq_true, not_or, Bool.not_eq_true] at finite
    exact .real finite.1 finite.2

theorem Value.Written.writable {v : Value} (written : v.Written) : v.toDraft.toJson.Writable := by
  cases v with
  | number x =>
      exact writable_object ["__value__", "value"] rfl (by decide)
        (by simp [writable_word, Number.writable_toJson])
  | string s =>
      obtain ⟨cs, rfl⟩ := written
      exact writable_object ["__value__", "value"] rfl (by decide)
        (by simp [writable_word, Writable.string])
  | boolean b =>
      cases b <;> exact writable_object ["__value__"] rfl (by decide) (by simp [writable_word])
  | nil => exact writable_object ["__value__"] rfl (by decide) (by simp [writable_word])

namespace Token

theorem Written.writable_literal {t : Token} (written : t.Written) :
    (DraftToken.literalToJson (Literal.toDraft t.literal)).Writable := by
  by_cases text : t.kind = .string
  · obtain ⟨cs, literal⟩ := written.string text
    rw [literal]
    exact .string cs
  by_cases name : t.kind = .identifier
  · obtain ⟨cs, lexeme⟩ := written.lexeme
    rw [written.name name, lexeme]
    exact .string cs
  by_cases number : t.kind = .number
  · obtain ⟨x, literal⟩ := written.number number
    rw [literal]
    exact Number.writable_toJson x
  · rw [written.bare (by simp [number, text, name])]
    exact .null

/-- A token as written goes through text if its line is not too long. -/
theorem Written.writable {t : Token} (written : t.Written) (short : Short t.line) :
    t.toDraft.toJson.Writable := by
  obtain ⟨cs, lexeme⟩ := written.lexeme
  refine writable_object ["type", "lexeme", "literal", "line"] rfl (by decide) ?_
  simp [toDraft, writable_word, lexeme, Writable.string, written.writable_literal, Writable.integer short]

end Token

namespace Node

section Built

variable {P : Token → Prop} (given : ∀ t, P t → t.Written ∧ Short t.line) {node : Node}

include given

theorem writable_of_isExpression (built : IsExpression P node) : node.toDraft.toJson.Writable := by
  induction built with
  | @atom t _ holds stands =>
      obtain ⟨written, short⟩ := given _ holds
      rcases written.atom stands with ⟨value, rfl, inside⟩ | ⟨-, rfl⟩
      · exact writable_object ["type", "value"] rfl (by decide)
          (by simp [writable_word, inside.writable])
      · obtain ⟨cs, lexeme⟩ := written.lexeme
        exact writable_object ["type", "name", "line"] rfl (by decide)
          (by simp [writable_word, lexeme, Writable.string, Writable.integer short])
  | unary holds _ _ inner =>
      obtain ⟨written, short⟩ := given _ holds
      exact writable_object ["type", "operator", "right"] rfl (by decide)
        (by simp [writable_word, inner, written.writable short])
  | binary holds _ _ _ _ first second =>
      obtain ⟨written, short⟩ := given _ holds
      exact writable_object ["type", "left", "operator", "right"] rfl (by decide)
        (by simp [writable_word, first, second, written.writable short])
  | grouping _ value =>
      exact writable_object ["type", "node"] rfl (by decide) (by simp [writable_word, value])

theorem writable_of_isStatement (built : IsStatement P node) : node.toDraft.toJson.Writable := by
  cases built with
  | expression inner =>
      exact writable_object ["type", "value"] rfl (by decide)
        (by simp [writable_word, writable_of_isExpression given inner])
  | print inner =>
      exact writable_object ["type", "value"] rfl (by decide)
        (by simp [writable_word, writable_of_isExpression given inner])
  | bare holds kind =>
      obtain ⟨written, short⟩ := given _ holds
      obtain ⟨cs, lexeme⟩ := written.lexeme
      have absent : missing.toDraft.toJson.Writable := .null
      exact writable_object ["type", "name", "initializer", "line"] rfl (by decide)
        (by simp [writable_word, lexeme, Writable.string, absent, Writable.integer short])
  | initialized holds kind inner =>
      obtain ⟨written, short⟩ := given _ holds
      obtain ⟨cs, lexeme⟩ := written.lexeme
      exact writable_object ["type", "name", "initializer", "line"] rfl (by decide)
        (by simp [writable_word, lexeme, Writable.string, writable_of_isExpression given inner,
          Writable.integer short])

end Built

end Node

/-- The program of a text goes through text, if the text has fewer lines than the longest integer can
count. -/
theorem FrontEnd.writable_read (frontEnd : FrontEnd) {source : String}
    (lines : source.toList.count '\n' + 1 < 10 ^ Numeral.maxDigits) :
    (Node.programToJson (frontEnd.read source).statements).Writable := by
  have items : Writable (.array (Draft.toJsonList (Node.toDrafts (frontEnd.read source).statements))) := by
    refine .array fun item member => ?_
    rw [Draft.toJsonList_eq_map, Node.toDrafts_eq_map, List.map_map] at member
    obtain ⟨s, listed, rfl⟩ := List.mem_map.mp member
    refine Node.writable_of_isStatement ?_ (frontEnd.written_of_read source s listed)
    rintro t ⟨asWritten, above, below⟩
    refine ⟨asWritten, ?_⟩
    rw [Short, Nat.length_toDigits_le_iff (by decide) (by decide)]
    omega
  exact writable_object ["type", "body"] rfl (by decide) (by simp [writable_word, items])

end LoxLang
