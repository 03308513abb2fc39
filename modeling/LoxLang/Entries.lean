/-
# LoxLang.Entries -- values by key, in the order in which the keys came

Bindings, the fields of an object and the files of a folder are lists of entries with one
value per key.  A new value for a key that is present takes the place of the old one; a
new key goes behind the others.
-/
namespace LoxLang.Entries

set_option autoImplicit false

variable {κ α : Type} [DecidableEq κ]

/-- Set the value of a key; a key that is present keeps its place. -/
def put (key : κ) (value : α) : List (κ × α) → List (κ × α)
  | [] => [(key, value)]
  | (other, old) :: rest =>
      if other = key then (key, value) :: rest else (other, old) :: put key value rest

/-- A key has the value that was set last. -/
theorem lookup_put [BEq κ] [LawfulBEq κ] (key : κ) (value : α) (entries : List (κ × α)) (other : κ) :
    (put key value entries).lookup other = if other = key then some value else entries.lookup other := by
  induction entries with
  | nil =>
      by_cases same : other = key
      · simp [put, same]
      · simp [put, List.lookup_cons, same, beq_eq_false_iff_ne.mpr same]
  | cons entry rest ih =>
      obtain ⟨first, old⟩ := entry
      by_cases here : first = key
      · subst here
        by_cases same : other = first
        · simp [put, same]
        · simp [put, List.lookup_cons, same, beq_eq_false_iff_ne.mpr same]
      · simp only [put, if_neg here, List.lookup_cons, ih]
        by_cases same : other = key
        · subst same
          simp [beq_eq_false_iff_ne.mpr (Ne.symm here)]
        · simp [same]

/-- The keys are the earlier ones and the one that was set. -/
theorem any_put (p : κ → Bool) (key : κ) (value : α) (entries : List (κ × α)) :
    (put key value entries).any (fun entry => p entry.1) =
      (entries.any (fun entry => p entry.1) || p key) := by
  induction entries with
  | nil => simp [put]
  | cons entry rest ih =>
      obtain ⟨first, old⟩ := entry
      by_cases here : first = key
      · subst here
        simp [put, Bool.or_comm]
      · rw [put, if_neg here, List.any_cons, List.any_cons, ih, Bool.or_assoc]

/-- A key that is not there yet goes behind the others. -/
theorem put_of_not_mem {key : κ} (value : α) {entries : List (κ × α)}
    (new : key ∉ entries.map Prod.fst) : put key value entries = entries ++ [(key, value)] := by
  induction entries with
  | nil => rfl
  | cons entry rest ih =>
      obtain ⟨first, old⟩ := entry
      simp only [List.map_cons, List.mem_cons, not_or] at new
      rw [put, if_neg (Ne.symm new.1), ih new.2, List.cons_append]

end LoxLang.Entries
