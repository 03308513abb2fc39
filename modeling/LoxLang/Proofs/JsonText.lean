/-
# LoxLang.Proofs.JsonText -- JSON values come back from their text

Reading is an induction on the value, with the text behind it as a parameter.  A written
value has a first character by which it is told from the marks that close containers, and
what stands behind it, a comma or a line break, goes on with no number.  The loops over
items and fields have fuel for every character that is left, and each round takes one.

Written text has no carriage returns, since strings escape them, so it also comes back
from a file.
-/
import LoxLang.Proofs.FileText
import LoxLang.Proofs.JsonScalars

namespace LoxLang.Json

set_option autoImplicit false

/-- The values that reading recovers from their text: strings are made of characters, numbers are
finite, integers are not too long, and the names of an object differ. -/
inductive Writable : Json → Prop where
  | null : Writable .null
  | boolean (b : Bool) : Writable (.boolean b)
  | integer {n : Int} (short : Short n) : Writable (.integer n)
  | real {x : Float} (number : x.isNaN = false) (bounded : x.isInf = false) : Writable (.real x)
  | string (cs : List Char) : Writable (.string (Text.ofChars cs))
  | array {items : List Json} (each : ∀ item ∈ items, Writable item) : Writable (.array items)
  | object {fields : List (Text × Json)} (names : ∀ field ∈ fields, ∃ cs, field.1 = Text.ofChars cs)
      (distinct : (fields.map Prod.fst).Nodup) (each : ∀ field ∈ fields, Writable field.2) :
      Writable (.object fields)

/-! ## What is written -/

theorem depth_le_depthItems {items : List Json} {item : Json} (member : item ∈ items) :
    item.depth ≤ depthItems items := by
  induction items with
  | nil => cases member
  | cons other rest ih =>
      rw [depthItems]
      rcases List.mem_cons.mp member with rfl | later
      · exact le_max_left _ _
      · exact (ih later).trans (le_max_right _ _)

theorem depth_le_depthFields {fields : List (Text × Json)} {field : Text × Json} (member : field ∈ fields) :
    field.2.depth ≤ depthFields fields := by
  induction fields with
  | nil => cases member
  | cons other rest ih =>
      obtain ⟨name, value⟩ := other
      rw [depthFields, depthField]
      rcases List.mem_cons.mp member with rfl | later
      · exact le_max_left _ _
      · exact (ih later).trans (le_max_right _ _)

theorem chars_writeString (cs : List Char) (tail : Text) :
    Text.chars (writeString (Text.ofChars cs) ++ tail) =
      '"' :: (cs.flatMap (fun c => (writeChar c).toList) ++ '"' :: tail.chars) := by
  have body : Text.chars ((Text.ofChars cs).flatMap writePoint) =
      cs.flatMap fun c => (writeChar c).toList := by
    induction cs with
    | nil => rfl
    | cons c cs ih =>
        rw [List.flatMap_cons, ← ih]
        show Text.chars (Text.ofString (writeChar c) ++ (Text.ofChars cs).flatMap writePoint) = _
        rw [Text.chars_append, Text.chars_ofString]
  rw [writeString]
  simp only [Text.chars_append, Text.chars_ofString, body]
  simp

theorem length_le_writeString (cs : List Char) (tail : Text) :
    cs.length + tail.length + 2 ≤ (writeString (Text.ofChars cs) ++ tail).length := by
  have one : ∀ c, 1 ≤ (writeChar c).toList.length := by
    intro c
    unfold writeChar
    split_ifs <;> simp
  have body : cs.length ≤ (cs.flatMap fun c => (writeChar c).toList).length := by
    induction cs with
    | nil => exact Nat.zero_le _
    | cons c cs ih =>
        have first := one c
        rw [List.flatMap_cons, List.length_append, List.length_cons]
        omega
  rw [← Text.length_chars (_ ++ tail), chars_writeString, List.length_cons, List.length_append,
    List.length_cons, Text.length_chars]
  omega

/-- A finite number is written as a form behind its sign. -/
theorem chars_literal {x : Float} (number : x.isNaN = false) (bounded : x.isInf = false) (tail : Text) :
    ∃ f : Numeral.Form, f.Valid ∧ f.float = x.abs ∧
      Text.chars (Number.literal x ++ tail) =
        (if floatSign x then ['-'] else []) ++ (f.chars ++ tail.chars) := by
  obtain ⟨f, valid, value, text⟩ := Numeral.form_of_literal number bounded
  exact ⟨f, valid, value, by rw [Text.chars_append, Text.chars_ofString, text, List.append_assoc]⟩

/-- The characters that a written value can start with. -/
def Starts (c : Char) : Prop := c ∈ ['n', 't', 'f', '-', '"', '[', '\x7b'] ∨ c.isDigit

theorem Starts.ne {c d : Char} (starts : Starts c) (other : d ∉ ['n', 't', 'f', '-', '"', '[', '\x7b'])
    (letter : d.isDigit = false) : c ≠ d := by
  rintro rfl
  rcases starts with listed | digit
  · exact other listed
  · rw [letter] at digit
    cases digit

theorem Starts.isGap {c : Char} (starts : Starts c) : Reader.isGap c = false := by
  simp [Reader.isGap, starts.ne]

theorem starts_of_digit (negative : Bool) {c : Char} (digit : c.isDigit) (cs : List Char) :
    ∃ d ds, (if negative then ['-'] else []) ++ c :: cs = d :: ds ∧ Starts d := by
  cases negative with
  | true => exact ⟨'-', c :: cs, rfl, .inl (by decide)⟩
  | false => exact ⟨c, cs, rfl, .inr digit⟩

/-- A written value has a first character of its own. -/
theorem head_write {j : Json} (writable : Writable j) (columns : Nat) (tail : Text) :
    ∃ c cs, (write columns j tail).chars = c :: cs ∧ Starts c := by
  cases writable with
  | null => exact ⟨'n', _, rfl, .inl (by decide)⟩
  | boolean b =>
      cases b with
      | true => exact ⟨'t', _, rfl, .inl (by decide)⟩
      | false => exact ⟨'f', _, rfl, .inl (by decide)⟩
  | @integer n short =>
      obtain ⟨c, others, first⟩ := List.exists_cons_of_ne_nil (Nat.toDigits_ne_nil (b := 10) (n := n.natAbs))
      have digit := Numeral.isDigit_toDigits n.natAbs c (by rw [first]; exact List.mem_cons_self)
      obtain ⟨d, ds, same, starts⟩ := starts_of_digit (decide (n < 0)) digit (others ++ tail.chars)
      refine ⟨d, ds, ?_, starts⟩
      rw [write, Text.chars_append, Text.chars_ofString, ← same, Reader.toList_toString, first]
      simp
  | @real x number bounded =>
      obtain ⟨f, valid, -, text⟩ := chars_literal number bounded tail
      obtain ⟨c, others, first, digit⟩ := Reader.head_chars valid
      obtain ⟨d, ds, same, starts⟩ := starts_of_digit (floatSign x) digit (others ++ tail.chars)
      exact ⟨d, ds, by rw [write, text, first, List.cons_append, same], starts⟩
  | string cs => exact ⟨'"', _, by rw [write, chars_writeString], .inl (by decide)⟩
  | array each =>
      rw [write]
      split
      · exact ⟨'[', _, rfl, .inl (by decide)⟩
      · exact ⟨'[', _, rfl, .inl (by decide)⟩
  | object names distinct each =>
      rw [write]
      split
      · exact ⟨'\x7b', _, rfl, .inl (by decide)⟩
      · exact ⟨'\x7b', _, rfl, .inl (by decide)⟩

/-! ## Reading what is written -/

namespace Reader

theorem skipGap_lineBreak (columns : Nat) (rest : List Char) :
    skipGap ((lineBreak columns).toList ++ rest) = skipGap rest := by
  have gap : ∀ c ∈ (lineBreak columns).toList, isGap c := by
    simp [lineBreak, isGap]
  exact List.dropWhile_append_of_pos gap

theorem skipGap_of_not_gap {c : Char} (other : isGap c = false) (cs : List Char) :
    skipGap (c :: cs) = c :: cs := List.dropWhile_cons_of_neg (by simp [other])

theorem skipGap_write {j : Json} (writable : Writable j) (columns : Nat) (tail : Text) :
    skipGap (write columns j tail).chars = (write columns j tail).chars := by
  obtain ⟨c, cs, same, starts⟩ := head_write writable columns tail
  rw [same, skipGap_of_not_gap starts.isGap]

theorem ends_lineBreak (columns : Nat) (rest : List Char) :
    Ends ((lineBreak columns).toList ++ rest) := by
  intro c member
  have first : '\n' = c := by simpa [lineBreak] using member
  subst first
  decide

theorem ends_comma (tail : Text) : Ends (Text.chars ("," ++ tail)) := by
  intro c member
  cases member
  decide

/-- The mark that closes a container is found behind a line break. -/
theorem skipGap_closing (columns : Nat) (mark : String) (c : Char) (single : mark.toList = [c])
    (other : isGap c = false) (tail : Text) :
    Ends (Text.chars (lineBreak columns ++ mark ++ tail)) ∧
      skipGap (Text.chars (lineBreak columns ++ mark ++ tail)) = c :: tail.chars := by
  rw [Text.chars_append, Text.chars_append, Text.chars_ofString, Text.chars_ofString, single,
    List.append_assoc, skipGap_lineBreak, List.singleton_append, skipGap_of_not_gap other]
  exact ⟨ends_lineBreak _ _, rfl⟩

theorem length_lineBreak (columns : Nat) :
    0 < List.length (Text.ofString (lineBreak columns)) := by
  simp [Text.ofString, Text.ofChars, lineBreak]

theorem writeItems_singleton (columns : Nat) (item : Json) (tail : Text) :
    writeItems columns [item] tail = lineBreak columns ++ write columns item tail := rfl

theorem writeItems_cons_cons (columns : Nat) (item next : Json) (rest : List Json) (tail : Text) :
    writeItems columns (item :: next :: rest) tail =
      lineBreak columns ++ write columns item ("," ++ writeItems columns (next :: rest) tail) := rfl

mutual

/-- What stands behind a value stays behind it. -/
theorem length_le_write (columns : Nat) : (j : Json) → (tail : Text) →
    tail.length ≤ (write columns j tail).length
  | .null, tail => by simp [write]
  | .boolean true, tail => by simp [write]
  | .boolean false, tail => by simp [write]
  | .integer n, tail => by simp [write]
  | .real x, tail => by simp [write]
  | .string s, tail => by simp [write]
  | .array items, tail => by
      have inner := length_le_writeItems (columns + 2) items (lineBreak columns ++ "]" ++ tail)
      simp only [List.length_append] at inner
      rw [write]
      split <;> rw [List.length_append] <;> omega
  | .object fields, tail => by
      have inner := length_le_writeFields (columns + 2) fields (lineBreak columns ++ "\x7d" ++ tail)
      simp only [List.length_append] at inner
      rw [write]
      split <;> rw [List.length_append] <;> omega

theorem length_le_writeItems (columns : Nat) : (items : List Json) → (tail : Text) →
    tail.length ≤ (writeItems columns items tail).length
  | [], tail => le_rfl
  | item :: rest, tail => by
      have first := length_le_write columns item (comma rest ++ writeItems columns rest tail)
      have further := length_le_writeItems columns rest tail
      rw [writeItems, List.length_append]
      rw [List.length_append] at first
      omega

theorem length_le_writeFields (columns : Nat) : (fields : List (Text × Json)) → (tail : Text) →
    tail.length ≤ (writeFields columns fields tail).length
  | [], tail => le_rfl
  | (name, value) :: rest, tail => by
      have first := length_le_write columns value (comma rest ++ writeFields columns rest tail)
      have further := length_le_writeFields columns rest tail
      rw [writeFields, writeField, List.length_append, List.length_append]
      rw [List.length_append] at first
      omega

end

/-- A value is read back from the text that `write` gives it, in front of any rest. -/
def ReadsBack (read : Read Json) (bound columns : Nat) (j : Json) : Prop :=
  ∀ tail : Text, Ends tail.chars → (write columns j tail).length ≤ bound →
    read (write columns j tail).chars = .ok (j, tail.chars)

/-- The items of a written array are read to its end. -/
theorem items_write {read : Read Json} {bound columns : Nat} {item : Json} {rest : List Json}
    (writable : ∀ j ∈ item :: rest, Writable j)
    (reads : ∀ j ∈ item :: rest, ReadsBack read bound columns j) (fuel : Nat) (done : List Json)
    {behind : Text} {tail : List Char} (ends : Ends behind.chars)
    (closing : skipGap behind.chars = ']' :: tail)
    (enough : (writeItems columns (item :: rest) behind).length ≤ fuel) (within : fuel ≤ bound) :
    items read fuel done (skipGap (writeItems columns (item :: rest) behind).chars) =
      .ok (.array (done.reverse ++ item :: rest), tail) := by
  have starts := length_lineBreak columns
  induction rest generalizing item fuel done with
  | nil =>
      have here := reads item List.mem_cons_self behind ends
      rw [writeItems_singleton] at enough ⊢
      rw [List.length_append] at enough
      obtain ⟨fuel, rfl⟩ : ∃ n, fuel = n + 1 := ⟨fuel - 1, by omega⟩
      rw [Text.chars_append, Text.chars_ofString, skipGap_lineBreak,
        skipGap_write (writable item List.mem_cons_self), items, here (by omega)]
      simp only [closing, List.reverse_cons]
  | cons next rest ih =>
      have here := reads item List.mem_cons_self ("," ++ writeItems columns (next :: rest) behind)
        (ends_comma _)
      have later := ih (fun j member => writable j (List.mem_cons_of_mem item member))
        fun j member => reads j (List.mem_cons_of_mem item member)
      have behind' := length_le_write columns item ("," ++ writeItems columns (next :: rest) behind)
      rw [writeItems_cons_cons] at enough ⊢
      rw [List.length_append] at enough behind'
      obtain ⟨fuel, rfl⟩ : ∃ n, fuel = n + 1 := ⟨fuel - 1, by omega⟩
      rw [Text.chars_append, Text.chars_ofString, skipGap_lineBreak,
        skipGap_write (writable item List.mem_cons_self), items, here (by omega)]
      show items read fuel (item :: done) (skipGap (writeItems columns (next :: rest) behind).chars) = _
      rw [later fuel (item :: done) (by omega) (by omega), List.reverse_cons, List.append_assoc,
        List.singleton_append]

theorem writeField_eq (columns : Nat) (name : Text) (item : Json) (tail : Text) :
    writeField columns (name, item) tail = writeString name ++ (": " ++ write columns item tail) := by
  rw [writeField, List.append_assoc]

theorem skipGap_writeField (columns : Nat) (cs : List Char) (item : Json) (tail : Text) :
    skipGap (writeField columns (Text.ofChars cs, item) tail).chars =
      (writeField columns (Text.ofChars cs, item) tail).chars := by
  rw [writeField_eq, chars_writeString]
  rfl

theorem head_writeItems {item : Json} {rest : List Json} (writable : ∀ j ∈ item :: rest, Writable j)
    (columns : Nat) (tail : Text) :
    ∃ c cs, skipGap (writeItems columns (item :: rest) tail).chars = c :: cs ∧ Starts c := by
  have first := writable item List.mem_cons_self
  rw [writeItems, Text.chars_append, Text.chars_ofString, skipGap_lineBreak, skipGap_write first]
  exact head_write first columns _

/-- A written field is read as the field. -/
theorem field_write {read : Read Json} {bound columns : Nat} (cs : List Char) {item : Json}
    (writable : Writable item) (reads : ReadsBack read bound columns item) {fuel : Nat} {behind : Text}
    (ends : Ends behind.chars)
    (enough : (writeField columns (Text.ofChars cs, item) behind).length ≤ fuel) (within : fuel ≤ bound) :
    field read fuel (writeField columns (Text.ofChars cs, item) behind).chars =
      .ok ((Text.ofChars cs, item), behind.chars) := by
  have length := length_le_writeString cs (": " ++ write columns item behind)
  rw [writeField_eq] at enough ⊢
  rw [List.length_append] at length
  have colon : skipGap (Text.chars (": " ++ write columns item behind)) =
      ':' :: ' ' :: (write columns item behind).chars := rfl
  have gap : skipGap (' ' :: (write columns item behind).chars) = (write columns item behind).chars :=
    skipGap_write writable columns behind
  rw [chars_writeString, field, stringBody_written _ _ _ _ _ (by omega)]
  simp only [colon, gap]
  rw [reads behind ends (by omega)]
  rfl

theorem head_writeFields {field : Text × Json} {rest : List (Text × Json)}
    (names : ∀ f ∈ field :: rest, ∃ cs, f.1 = Text.ofChars cs) (columns : Nat) (tail : Text) :
    ∃ cs, skipGap (writeFields columns (field :: rest) tail).chars = '"' :: cs := by
  obtain ⟨name, item⟩ := field
  obtain ⟨cs, rfl⟩ : ∃ cs, name = Text.ofChars cs := names _ List.mem_cons_self
  rw [writeFields, Text.chars_append, Text.chars_ofString, skipGap_lineBreak, skipGap_writeField,
    writeField_eq, chars_writeString]
  exact ⟨_, rfl⟩

theorem not_mem_of_nodup {done rest : List (Text × Json)} {field : Text × Json}
    (distinct : ((done ++ field :: rest).map Prod.fst).Nodup) : field.1 ∉ done.map Prod.fst := by
  rw [List.map_append, List.nodup_append] at distinct
  exact fun member => distinct.2.2 _ member _ List.mem_cons_self rfl

theorem writeFields_singleton (columns : Nat) (field : Text × Json) (tail : Text) :
    writeFields columns [field] tail = lineBreak columns ++ writeField columns field tail := rfl

theorem writeFields_cons_cons (columns : Nat) (field next : Text × Json) (rest : List (Text × Json))
    (tail : Text) :
    writeFields columns (field :: next :: rest) tail =
      lineBreak columns ++ writeField columns field ("," ++ writeFields columns (next :: rest) tail) := rfl

/-- The fields of a written object are read to its end. -/
theorem fields_write {read : Read Json} {bound columns : Nat} {first : Text × Json}
    {rest : List (Text × Json)} (names : ∀ f ∈ first :: rest, ∃ cs, f.1 = Text.ofChars cs)
    (writable : ∀ f ∈ first :: rest, Writable f.2)
    (reads : ∀ f ∈ first :: rest, ReadsBack read bound columns f.2) (fuel : Nat)
    (done : List (Text × Json)) (distinct : ((done ++ first :: rest).map Prod.fst).Nodup)
    {behind : Text} {tail : List Char} (ends : Ends behind.chars)
    (closing : skipGap behind.chars = '\x7d' :: tail)
    (enough : (writeFields columns (first :: rest) behind).length ≤ fuel) (within : fuel ≤ bound) :
    fields read fuel done (skipGap (writeFields columns (first :: rest) behind).chars) =
      .ok (.object (done ++ first :: rest), tail) := by
  have starts := length_lineBreak columns
  induction rest generalizing first fuel done with
  | nil =>
      obtain ⟨name, item⟩ := first
      obtain ⟨cs, rfl⟩ : ∃ cs, name = Text.ofChars cs := names _ List.mem_cons_self
      have writable : Writable item := writable _ List.mem_cons_self
      have reads : ReadsBack read bound columns item := reads _ List.mem_cons_self
      rw [writeFields_singleton] at enough ⊢
      rw [List.length_append] at enough
      obtain ⟨fuel, rfl⟩ : ∃ n, fuel = n + 1 := ⟨fuel - 1, by omega⟩
      rw [Text.chars_append, Text.chars_ofString, skipGap_lineBreak, skipGap_writeField, fields,
        field_write cs writable reads ends (by omega) within]
      simp only [closing, Entries.put_of_not_mem item (not_mem_of_nodup distinct)]
  | cons next rest ih =>
      obtain ⟨name, item⟩ := first
      obtain ⟨cs, rfl⟩ : ∃ cs, name = Text.ofChars cs := names _ List.mem_cons_self
      have here : Writable item := writable _ List.mem_cons_self
      have reads' : ReadsBack read bound columns item := reads _ List.mem_cons_self
      have later := ih (fun f member => names f (List.mem_cons_of_mem _ member))
        (fun f member => writable f (List.mem_cons_of_mem _ member))
        (fun f member => reads f (List.mem_cons_of_mem _ member))
      have behind' := length_le_write columns item ("," ++ writeFields columns (next :: rest) behind)
      have within' := length_le_writeString cs
        (": " ++ write columns item ("," ++ writeFields columns (next :: rest) behind))
      rw [← writeField_eq] at within'
      rw [writeFields_cons_cons] at enough ⊢
      rw [List.length_append] at enough behind' within'
      obtain ⟨fuel, rfl⟩ : ∃ n, fuel = n + 1 := ⟨fuel - 1, by omega⟩
      rw [Text.chars_append, Text.chars_ofString, skipGap_lineBreak, skipGap_writeField, fields,
        field_write cs here reads' (ends_comma _) (by omega) within]
      show fields read fuel (Entries.put (Text.ofChars cs) item done)
        (skipGap (writeFields columns (next :: rest) behind).chars) = _
      rw [Entries.put_of_not_mem item (not_mem_of_nodup distinct), later fuel _ ?_ (by omega) (by omega),
        List.append_assoc, List.singleton_append]
      rwa [List.append_assoc, List.singleton_append]

theorem value_of_items (fuel limit : Nat) {cs : List Char} {c : Char} {rest : List Char}
    (first : skipGap cs = c :: rest) (other : c ≠ ']') :
    value fuel (limit + 1) ('[' :: cs) = items (value fuel limit) fuel [] (skipGap cs) := by
  rw [value, first]
  split
  · rename_i closed
    exact absurd (List.cons.inj closed).1 other
  · rfl

theorem value_of_fields (fuel limit : Nat) {cs : List Char} {c : Char} {rest : List Char}
    (first : skipGap cs = c :: rest) (other : c ≠ '\x7d') :
    value fuel (limit + 1) ('\x7b' :: cs) = fields (value fuel limit) fuel [] (skipGap cs) := by
  rw [value, first]
  split
  · rename_i closed
    exact absurd (List.cons.inj closed).1 other
  · rfl

theorem readsBack_array {fuel limit columns : Nat} {items : List Json}
    (writable : ∀ item ∈ items, Writable item)
    (inner : ∀ item ∈ items, ReadsBack (value fuel limit) fuel (columns + 2) item) :
    ReadsBack (value fuel (limit + 1)) fuel columns (.array items) := by
  intro tail ends fits
  cases items with
  | nil => rfl
  | cons item rest =>
      obtain ⟨behind, closing⟩ := skipGap_closing columns "]" ']' rfl (by decide) tail
      obtain ⟨c, cs, first, starts⟩ :=
        head_writeItems writable (columns + 2) (lineBreak columns ++ "]" ++ tail)
      rw [write, if_neg (by simp)] at fits ⊢
      rw [List.length_append] at fits
      rw [Text.chars_append, Text.chars_ofString, show "[".toList = ['['] from rfl,
        List.singleton_append, value_of_items fuel limit first (starts.ne (by decide) (by decide)),
        items_write writable inner fuel [] behind closing (by omega) le_rfl]
      rfl

theorem readsBack_object {fuel limit columns : Nat} {fields : List (Text × Json)}
    (names : ∀ field ∈ fields, ∃ cs, field.1 = Text.ofChars cs) (distinct : (fields.map Prod.fst).Nodup)
    (writable : ∀ field ∈ fields, Writable field.2)
    (inner : ∀ field ∈ fields, ReadsBack (value fuel limit) fuel (columns + 2) field.2) :
    ReadsBack (value fuel (limit + 1)) fuel columns (.object fields) := by
  intro tail ends fits
  cases fields with
  | nil => rfl
  | cons field rest =>
      obtain ⟨behind, closing⟩ := skipGap_closing columns "\x7d" '\x7d' rfl (by decide) tail
      obtain ⟨cs, first⟩ := head_writeFields names (columns + 2) (lineBreak columns ++ "\x7d" ++ tail)
      rw [write, if_neg (by simp)] at fits ⊢
      rw [List.length_append] at fits
      rw [Text.chars_append, Text.chars_ofString, show "\x7b".toList = ['\x7b'] from rfl,
        List.singleton_append, value_of_fields fuel limit first (by decide),
        fields_write names writable inner fuel [] distinct behind closing (by omega) le_rfl]
      rfl

/-- **A written value is read back**, whatever stands behind it. -/
theorem value_write {j : Json} (writable : Writable j) {fuel limit : Nat} (columns : Nat)
    (shallow : j.depth ≤ limit) : ReadsBack (value fuel limit) fuel columns j := by
  induction writable generalizing limit columns with
  | null => exact fun tail _ _ => value_of_scalar fuel limit (by decide) (by decide) (by decide) _
  | boolean b =>
      cases b with
      | true => exact fun tail _ _ => value_of_scalar fuel limit (by decide) (by decide) (by decide) _
      | false => exact fun tail _ _ => value_of_scalar fuel limit (by decide) (by decide) (by decide) _
  | @integer n short =>
      intro tail ends fits
      obtain ⟨c, others, first⟩ := List.exists_cons_of_ne_nil (Nat.toDigits_ne_nil (b := 10) (n := n.natAbs))
      have digit := Numeral.isDigit_toDigits n.natAbs c (by rw [first]; exact List.mem_cons_self)
      have number := value_of_digit fuel limit (decide (n < 0)) digit (others ++ tail.chars)
      rw [← List.cons_append, ← first, ← List.append_assoc] at number
      simp only [decide_eq_true_eq] at number
      rw [write, Text.chars_append, Text.chars_ofString, toList_toString, number, ← toList_toString]
      exact number_integer short ends
  | @real x isNumber bounded =>
      intro tail ends fits
      obtain ⟨f, valid, value, text⟩ := chars_literal isNumber bounded tail
      obtain ⟨c, others, first, digit⟩ := head_chars valid
      have number := value_of_digit fuel limit (floatSign x) digit (others ++ tail.chars)
      rw [← List.cons_append, ← first] at number
      rw [write, text, number, number_form valid _ ends, value, Rounding.signed_abs isNumber]
  | string cs =>
      intro tail ends fits
      have length := length_le_writeString cs tail
      rw [write] at fits ⊢
      rw [chars_writeString, value, stringBody_written _ _ _ _ _ (by omega)]
      rfl
  | @array items each ih =>
      obtain ⟨limit, rfl⟩ : ∃ n, limit = n + 1 := ⟨limit - 1, by rw [depth] at shallow; omega⟩
      refine readsBack_array each fun item member => ih item member (columns + 2) ?_
      have below := depth_le_depthItems member
      rw [depth] at shallow
      omega
  | @object fields names distinct each ih =>
      obtain ⟨limit, rfl⟩ : ∃ n, limit = n + 1 := ⟨limit - 1, by rw [depth] at shallow; omega⟩
      refine readsBack_object names distinct each fun field member => ih field member (columns + 2) ?_
      have below := depth_le_depthFields member
      rw [depth] at shallow
      omega

end Reader

/-- **A text that holds a written value is read as the value.** -/
theorem read_pretty {j : Json} (writable : Writable j) {limit : Nat} (shallow : j.depth ≤ limit) :
    read limit j.pretty.shown = .ok j := by
  obtain ⟨c, cs, first, starts⟩ := head_write writable 0 []
  have mark : c ≠ '\ufeff' := starts.ne (by decide) (by decide)
  have back : Reader.value (write 0 j []).chars.length limit (write 0 j []).chars = .ok (j, []) :=
    Reader.value_write writable 0 shallow [] nofun (Text.length_chars _).ge
  unfold read pretty Text.shown
  rw [String.toList_ofList, if_neg (by simp [first, mark]), Reader.skipGap_write writable, back]
  rfl

/-! ## Files -/

theorem return_not_mem_digits {ds : List Char} (all : ∀ c ∈ ds, c.isDigit) : '\r' ∉ ds :=
  fun member => absurd (all _ member) (by decide)

theorem return_not_mem_form {f : Numeral.Form} (valid : f.Valid) : '\r' ∉ f.chars := by
  have whole := return_not_mem_digits valid.whole
  have fraction := return_not_mem_digits valid.fraction
  have exponent : '\r' ∉ f.exponentChars := by
    unfold Numeral.Form.exponentChars
    split
    · nofun
    · rename_i negative digits same
      have digits := return_not_mem_digits (valid.exponent negative digits same).2
      cases negative <;> simp [digits]
  have point : '\r' ∉ f.fractionChars := by
    unfold Numeral.Form.fractionChars
    split <;> simp [fraction]
  simp [Numeral.Form.chars, whole, point, exponent]

theorem return_not_mem_writeChar (c : Char) : '\r' ∉ (writeChar c).toList := by
  have code : ∀ n < 0x20, '\r' ∉ (Text.hexCode 4 n).toList := by decide
  unfold writeChar
  split_ifs with _ _ _ carriage _ _ _ control
  all_goals simp [Ne.symm, *]

theorem return_not_mem_writeString (cs : List Char) {tail : Text} (feeds : '\r' ∉ tail.chars) :
    '\r' ∉ Text.chars (writeString (Text.ofChars cs) ++ tail) := by
  rw [chars_writeString]
  simp [feeds, return_not_mem_writeChar]

theorem return_not_mem_lineBreak (columns : Nat) : '\r' ∉ (lineBreak columns).toList := by
  simp [lineBreak]

section Containers

variable {columns : Nat}

theorem return_not_mem_writeItems {items : List Json}
    (inner : ∀ item ∈ items, ∀ tail : Text, '\r' ∉ tail.chars → '\r' ∉ (write columns item tail).chars)
    {tail : Text} (feeds : '\r' ∉ tail.chars) : '\r' ∉ (writeItems columns items tail).chars := by
  induction items with
  | nil => exact feeds
  | cons item rest ih =>
      have later := ih fun j member => inner j (List.mem_cons_of_mem item member)
      have further : '\r' ∉ Text.chars (comma rest ++ writeItems columns rest tail) := by
        cases rest <;> simpa [comma] using later
      have here := inner item List.mem_cons_self _ further
      simp [writeItems, return_not_mem_lineBreak, here]

theorem return_not_mem_writeFields {fields : List (Text × Json)}
    (names : ∀ field ∈ fields, ∃ cs, field.1 = Text.ofChars cs)
    (inner : ∀ field ∈ fields, ∀ tail : Text, '\r' ∉ tail.chars →
      '\r' ∉ (write columns field.2 tail).chars)
    {tail : Text} (feeds : '\r' ∉ tail.chars) : '\r' ∉ (writeFields columns fields tail).chars := by
  induction fields with
  | nil => exact feeds
  | cons field rest ih =>
      have later := ih (fun j member => names j (List.mem_cons_of_mem field member))
        fun j member => inner j (List.mem_cons_of_mem field member)
      have further : '\r' ∉ Text.chars (comma rest ++ writeFields columns rest tail) := by
        cases rest <;> simpa [comma] using later
      have here := inner field List.mem_cons_self _ further
      obtain ⟨name, item⟩ := field
      obtain ⟨cs, rfl⟩ : ∃ cs, name = Text.ofChars cs := names _ List.mem_cons_self
      have colon :
          '\r' ∉ Text.chars (": " ++ write columns item (comma rest ++ writeFields columns rest tail)) := by
        simpa using here
      rw [writeFields, Text.chars_append, Text.chars_ofString, Reader.writeField_eq, List.mem_append, not_or]
      exact ⟨return_not_mem_lineBreak columns, return_not_mem_writeString cs colon⟩

end Containers

/-- No line of a written value ends with a carriage return. -/
theorem return_not_mem_write {j : Json} (writable : Writable j) (columns : Nat) (tail : Text)
    (feeds : '\r' ∉ tail.chars) : '\r' ∉ (write columns j tail).chars := by
  induction writable generalizing columns tail with
  | null => simpa [write] using feeds
  | boolean b => cases b <;> simpa [write] using feeds
  | @integer n short =>
      have digits := return_not_mem_digits (Numeral.isDigit_toDigits n.natAbs)
      rw [write, Text.chars_append, Text.chars_ofString, Reader.toList_toString]
      split <;> simp [digits, feeds]
  | real number bounded =>
      obtain ⟨f, valid, -, text⟩ := chars_literal number bounded tail
      have form := return_not_mem_form valid
      rw [write, text]
      split <;> simp [form, feeds]
  | string cs => exact return_not_mem_writeString cs feeds
  | @array items each ih =>
      have behind : '\r' ∉ Text.chars (lineBreak columns ++ "]" ++ tail) := by
        simp [return_not_mem_lineBreak, feeds]
      have inner := return_not_mem_writeItems (fun item member => ih item member (columns + 2)) behind
      rw [write]
      split
      · simpa using feeds
      · simpa using inner
  | @object fields names distinct each ih =>
      have behind : '\r' ∉ Text.chars (lineBreak columns ++ "\x7d" ++ tail) := by
        simp [return_not_mem_lineBreak, feeds]
      have inner :=
        return_not_mem_writeFields names (fun field member => ih field member (columns + 2)) behind
      rw [write]
      split
      · simpa using feeds
      · simpa using inner

/-- **A file that a value was written to is read as the value.** -/
theorem read_written {j : Json} (writable : Writable j) {limit : Nat} (shallow : j.depth ≤ limit) :
    ∃ text, Text.ofBytes j.pretty.shown.toUTF8.toList = .ok text ∧ read limit text = .ok j :=
  ⟨j.pretty.shown, Text.ofBytes_toUTF8 (return_not_mem_write writable 0 [] nofun),
    read_pretty writable shallow⟩

end LoxLang.Json
