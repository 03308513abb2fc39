/-
# LoxLang.Proofs.DecodingFaults -- when decoding comes to a number out of range

Of the faults of decoding two are overflows: an integer too large for a float, and an
infinite line.  The values that are decoded are parts of the given one, so neither happens
if all the numbers in it are in range (`Draft.bounded_decode`).  What decoding can do is
said once, function by function, of what it returns and of the fault it reports
(`Decoded.Bounded`).
-/
import LoxLang.Node.Codec

namespace LoxLang

set_option autoImplicit false

/-! ## Numbers in range -/

namespace Json

mutual

/-- Whether the numbers in a value are finite, the integers also as floats. -/
def inRange : Json → Bool
  | .integer n => !(Decimal.toFloat ⟨n.natAbs, 0⟩).isInf
  | .real x => !x.isInf
  | .array items => inRangeItems items
  | .object fields => inRangeFields fields
  | _ => true
termination_by structural j => j

def inRangeItems : List Json → Bool
  | [] => true
  | item :: rest => inRange item && inRangeItems rest
termination_by structural items => items

def inRangeFields : List (Text × Json) → Bool
  | [] => true
  | field :: rest => inRangeField field && inRangeFields rest
termination_by structural fields => fields

def inRangeField : Text × Json → Bool
  | (_, value) => inRange value
termination_by structural field => field

end

theorem inRange_of_mem {items : List Json} (within : inRangeItems items) :
    ∀ item ∈ items, item.inRange := by
  induction items with
  | nil => nofun
  | cons first rest ih =>
      rw [inRangeItems, Bool.and_eq_true] at within
      exact List.forall_mem_cons.mpr ⟨within.1, ih within.2⟩

theorem inRange_of_field? {fields : List (Text × Json)} (within : inRangeFields fields) {name : Text}
    {value : Json} (found : field? fields name = some value) : value.inRange := by
  induction fields with
  | nil => cases found
  | cons field rest ih =>
      obtain ⟨name', value'⟩ := field
      rw [inRangeFields, inRangeField, Bool.and_eq_true] at within
      rw [field?, List.lookup_cons] at found
      split at found
      · cases found
        exact within.1
      · exact ih within.2 found

end Json

/-! ## Decoding -/

namespace Decoded

/-- A decoded value has the property `P`, and a fault is no overflow. -/
def Bounded {α : Type} (P : α → Prop) : Decoded α → Prop
  | .ok a => P a
  | .error error => error.isOverflow = false

namespace Bounded

variable {α β : Type} {P : α → Prop} {Q : β → Prop}

theorem pure {a : α} (holds : P a) : Bounded P (pure a) := holds

theorem error {error : DecodeError} (other : error.isOverflow = false) : Bounded P (.error error) := other

theorem bind {x : Decoded α} {f : α → Decoded β} (first : Bounded P x)
    (second : ∀ a, P a → Bounded Q (f a)) : Bounded Q (x >>= f) := by
  cases x with
  | ok a => exact second a first
  | error error => exact first

theorem mapM {f : α → Decoded β} {items : List α} (each : ∀ item ∈ items, Bounded Q (f item)) :
    Bounded (fun _ => True) (items.mapM f) := by
  induction items with
  | nil => exact .pure trivial
  | cons item rest ih =>
      obtain ⟨here, later⟩ := List.forall_mem_cons.mp each
      rw [List.mapM_cons]
      exact here.bind fun b _ => (ih later).bind fun others _ => .pure trivial

end Bounded

end Decoded

open Decoded

namespace Json

variable {value : Json} {fields : List (Text × Json)}

theorem bounded_require (within : inRangeFields fields) (name : Text) :
    Bounded (fun value => value.inRange) (require fields name) := by
  unfold require
  split
  · rename_i value found
    exact .pure (inRange_of_field? within found)
  · exact .error rfl

theorem inRange_getD (within : inRangeFields fields) (name : Text) :
    ((field? fields name).getD .null).inRange := by
  cases found : field? fields name with
  | none => rfl
  | some value => exact inRange_of_field? within found

theorem bounded_toFloat (within : value.inRange) : Bounded (fun _ => True) value.toFloat := by
  cases value with
  | integer n =>
      simp only [toFloat]
      split
      · rename_i infinite
        -- the only overflow of a float, which the range of the integer excludes
        simp [inRange, infinite] at within
      · exact .pure trivial
  | string s =>
      simp only [toFloat]
      split
      · exact .pure trivial
      · exact .error rfl
  | real => exact .pure trivial
  | boolean => exact .pure trivial
  | null => exact .error rfl
  | array => exact .error rfl
  | object => exact .error rfl

theorem bounded_toInteger (within : value.inRange) : Bounded (fun _ => True) value.toInteger := by
  cases value with
  | real x =>
      simp only [toInteger]
      split
      · exact .error rfl
      · split
        · rename_i infinite
          simp [inRange, infinite] at within
        · exact .pure trivial
  | string s =>
      simp only [toInteger]
      split
      · exact .pure trivial
      · exact .error rfl
      · exact .error rfl
  | integer => exact .pure trivial
  | boolean => exact .pure trivial
  | null => exact .error rfl
  | array => exact .error rfl
  | object => exact .error rfl

theorem bounded_lineOf (within : inRangeFields fields) : Bounded (fun _ => True) (lineOf fields) := by
  unfold lineOf
  split
  · rename_i value found
    exact bounded_toInteger (inRange_of_field? within found)
  · exact .pure trivial

theorem bounded_toFields (within : value.inRange) :
    Bounded (fun fields => inRangeFields fields) value.toFields := by
  cases value with
  | object fields => exact .pure within
  | _ => exact .error rfl

theorem bounded_toItems (within : value.inRange) :
    Bounded (fun items => ∀ item ∈ items, item.inRange) value.toItems := by
  cases value with
  | array items => exact .pure (inRange_of_mem within)
  | string s =>
      refine .pure fun item member => ?_
      obtain ⟨point, -, rfl⟩ := List.mem_map.mp member
      rfl
  | object fields =>
      refine .pure fun item member => ?_
      obtain ⟨field, -, rfl⟩ := List.mem_map.mp member
      rfl
  | _ => exact .error rfl

theorem bounded_toTokenKind : Bounded (fun _ => True) value.toTokenKind := by
  cases value with
  | string name =>
      simp only [toTokenKind]
      split
      · exact .pure trivial
      · exact .error rfl
  | _ => exact .error rfl

theorem bounded_toLiteral (within : value.inRange) (kind : TokenKind) :
    Bounded (fun _ => True) (toLiteral kind value) := by
  unfold toLiteral
  split
  · exact .pure trivial
  · split
    · exact (bounded_toFloat within).bind fun x _ => .pure trivial
    · exact .pure trivial

theorem bounded_toToken (within : value.inRange) : Bounded (fun _ => True) value.toToken := by
  refine (bounded_toFields within).bind fun fields within => ?_
  refine (bounded_require within _).bind fun name _ => ?_
  refine bounded_toTokenKind.bind fun kind _ => ?_
  refine (bounded_toLiteral (inRange_getD within _) kind).bind fun literal _ => ?_
  refine (bounded_require within _).bind fun lexeme _ => ?_
  refine (bounded_lineOf within).bind fun line _ => ?_
  exact .pure trivial

theorem bounded_toValue (within : value.inRange) : Bounded (fun _ => True) value.toValue := by
  cases value with
  | object fields =>
      simp only [toValue]
      split
      · refine (bounded_require within _).bind fun value within => ?_
        exact (bounded_toFloat within).bind fun x _ => .pure trivial
      · exact (bounded_require within _).bind fun value _ => .pure trivial
      · exact .pure trivial
      · exact .pure trivial
      · exact .pure trivial
      · exact .error rfl
  | _ => exact .error rfl

end Json

open Json

namespace Draft

/-- Decoding a value with its numbers in range comes to no overflow. -/
theorem bounded_decode {fuel : Nat} {value : Json} (within : value.inRange) :
    Bounded (fun _ => True) (decode fuel value) := by
  induction fuel generalizing value with
  | zero => exact .error rfl
  | succ fuel ih =>
      cases value with
      | null => exact .pure trivial
      | object fields =>
          have part (name : Text) := bounded_require within name
          simp only [decode]
          -- one case for each kind of node, its fields in the order in which they are looked at
          split
          · refine (part _).bind fun body within => ?_
            refine (bounded_toItems within).bind fun items each => ?_
            refine (Bounded.mapM fun item member => ih (each item member)).bind fun statements _ => ?_
            exact .pure trivial
          · refine (part _).bind fun _ within' => (ih within').bind fun left _ => ?_
            refine (part _).bind fun _ within' => (bounded_toToken within').bind fun operator _ => ?_
            exact (part _).bind fun _ within' => (ih within').bind fun right _ => .pure trivial
          · refine (part _).bind fun _ within' => (bounded_toToken within').bind fun operator _ => ?_
            exact (part _).bind fun _ within' => (ih within').bind fun operand _ => .pure trivial
          · exact (part _).bind fun _ within' => (ih within').bind fun inner _ => .pure trivial
          · exact (part _).bind fun _ within' => (bounded_toValue within').bind fun value _ => .pure trivial
          · exact (part _).bind fun name _ => (bounded_lineOf within).bind fun line _ => .pure trivial
          · exact (part _).bind fun _ within' => (ih within').bind fun value _ => .pure trivial
          · exact (part _).bind fun _ within' => (ih within').bind fun value _ => .pure trivial
          · refine (part _).bind fun name _ => ?_
            refine (ih (inRange_getD within _)).bind fun initializer _ => ?_
            exact (bounded_lineOf within).bind fun line _ => .pure trivial
          · exact .error rfl
      | _ => exact .error rfl

/-- A program with its numbers in range is not refused for an overflow. -/
theorem isOverflow_eq_false {value : Json} (within : value.inRange) {error : DecodeError}
    (fault : programOfJson value = .error error) : error.isOverflow = false := by
  have decoded : Bounded (fun _ => True) (ofJson value) := bounded_decode within
  have program : Bounded (fun _ => True) (programOfJson value) := by
    refine decoded.bind fun draft _ => ?_
    split
    · exact .pure trivial
    · exact .error rfl
  rwa [fault] at program

end Draft

end LoxLang
