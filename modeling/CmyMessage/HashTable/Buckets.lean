import CmyMessage.HashTable.Table

/-!
# Buckets as lists, and the map they hold

The entries of each bucket as a list, with the three table operations on them.  When every entry
sits in the bucket its string is assigned to and no bucket repeats a string, the buckets hold a
partial map from strings to objects.
-/

namespace CmyMessage

/-- A partial map from strings to objects. -/
abbrev StringMap (α : Type*) := List UInt8 → Option α

namespace StringMap

variable {α : Type*}

/-- Bind an absent string; a present string keeps its binding. -/
def insert (map : StringMap α) (string : List UInt8) (object : α) : Bool × StringMap α :=
  match map string with
  | some _ => (false, map)
  | none => (true, Function.update map string (some object))

/-- Remove the binding of a present string. -/
def delete (map : StringMap α) (string : List UInt8) : Bool × StringMap α :=
  match map string with
  | some _ => (true, Function.update map string none)
  | none => (false, map)

/-- What is bound after an insertion was bound before, or is the inserted binding. -/
theorem insert_eq_some {map : StringMap α} {string key : List UInt8} {object found : α}
    (bound : (map.insert key object).2 string = some found) :
    map string = some found ∨ string = key ∧ found = object := by
  rw [insert] at bound
  split at bound
  · exact .inl bound
  · by_cases same : string = key
    · subst same
      simp only [Function.update_self] at bound
      exact .inr ⟨rfl, (Option.some.inj bound).symm⟩
    · exact .inl ((Function.update_of_ne same _ _).symm.trans bound)

/-- An insertion keeps what is bound. -/
theorem insert_keeps {map : StringMap α} {string : List UInt8} {object : α}
    (bound : map string = some object) (key : List UInt8) (other : α) :
    (map.insert key other).2 string = some object := by
  rw [insert]
  split
  · exact bound
  · rename_i absent
    have different : string ≠ key := by
      rintro rfl
      rw [absent] at bound
      cases bound
    exact (Function.update_of_ne different _ _).trans bound

theorem delete_eq_some {map : StringMap α} {string key : List UInt8} {found : α}
    (bound : (map.delete key).2 string = some found) : map string = some found := by
  rw [delete] at bound
  split at bound
  · simp only [Function.update_apply] at bound
    split at bound
    · cases bound
    · exact bound
  · exact bound

end StringMap

/-- The entries of every bucket. -/
abbrev Buckets (α : Type*) := Nat → List (Entry α)

namespace Buckets

variable {α : Type*}

/-- The object of the first entry of the bucket with the key. -/
def lookup (buckets : Buckets α) (index : Nat) (key : StringBuffer) : Option α :=
  ((buckets index).find? (Entry.hasKey key)).map Entry.object

/-- Prepend an entry unless the bucket has one with the key. -/
def insert (buckets : Buckets α) (index : Nat) (key : StringBuffer) (object : α)
    (leftover : List UInt8) : Bool × Buckets α :=
  if (buckets.lookup index key).isSome then
    (false, buckets)
  else
    (true, Function.update buckets index (⟨strdup key leftover, object⟩ :: buckets index))

/-- Remove the first entry of the bucket with the key. -/
def delete (buckets : Buckets α) (index : Nat) (key : StringBuffer) : Bool × Buckets α :=
  if (buckets.lookup index key).isSome then
    (true, Function.update buckets index ((buckets index).eraseP (Entry.hasKey key)))
  else
    (false, buckets)

/-- Every entry sits in the bucket of its string, and no bucket repeats a string. -/
structure Coherent (place : List UInt8 → Nat) (buckets : Buckets α) : Prop where
  placed : ∀ index, ∀ entry ∈ buckets index, place entry.key.text = index
  distinct : ∀ index, ((buckets index).map fun entry => entry.key.text).Nodup

/-- The map held by the buckets when strings are assigned to buckets by `place`. -/
def toMap (place : List UInt8 → Nat) (buckets : Buckets α) : StringMap α := fun string =>
  ((buckets (place string)).find? fun entry => decide (entry.key.text = string)).map Entry.object

section Map

variable {place : List UInt8 → Nat} {buckets : Buckets α}

theorem coherent_empty (place : List UInt8 → Nat) : Coherent place fun _ => ([] : List (Entry α)) :=
  ⟨fun _ _ member => by simp at member, fun _ => List.nodup_nil⟩

@[simp]
theorem toMap_empty (place : List UInt8 → Nat) :
    toMap place (fun _ => ([] : List (Entry α))) = fun _ => none := rfl

theorem lookup_placed (buckets : Buckets α) {index : Nat} {key : StringBuffer}
    (assigned : index = place key.text) : buckets.lookup index key = buckets.toMap place key.text :=
  assigned ▸ rfl

/-- A key that hashes elsewhere is not found, whatever its string. -/
theorem Coherent.lookup_misplaced (coherent : Coherent place buckets) {index : Nat}
    {key : StringBuffer} (misplaced : index ≠ place key.text) :
    buckets.lookup index key = none := by
  have absent : (buckets index).find? (Entry.hasKey key) = none := by
    refine List.find?_eq_none.mpr fun entry member found => misplaced ?_
    have same : entry.key.text = key.text := of_decide_eq_true found
    exact same ▸ (coherent.placed index entry member).symm
  rw [lookup, absent, Option.map_none]

theorem Coherent.lookup_eq (coherent : Coherent place buckets) (index : Nat) (key : StringBuffer) :
    buckets.lookup index key =
      if index = place key.text then buckets.toMap place key.text else none := by
  split
  · exact buckets.lookup_placed ‹_›
  · exact coherent.lookup_misplaced ‹_›

/-- A bound string has an entry, and the entry is the only one with the string. -/
theorem Coherent.toMap_eq_some_iff (coherent : Coherent place buckets) {string : List UInt8}
    {object : α} : buckets.toMap place string = some object ↔
      ∃ entry ∈ buckets (place string), entry.key.text = string ∧ entry.object = object := by
  constructor
  · intro bound
    obtain ⟨entry, found, isObject⟩ := Option.map_eq_some_iff.mp bound
    have same : entry.key.text = string := by simpa using List.find?_some found
    exact ⟨entry, List.mem_of_find?_eq_some found, same, isObject⟩
  · intro exists'
    obtain ⟨entry, member, same, rfl⟩ := exists'
    cases found : (buckets (place string)).find? fun entry => decide (entry.key.text = string) with
    | none =>
        have rejected := List.find?_eq_none.mp found entry member
        simp [same] at rejected
    | some first =>
        have first_same : first.key.text = string := by simpa using List.find?_some found
        have only : first = entry := List.inj_on_of_nodup_map (coherent.distinct (place string))
          (List.mem_of_find?_eq_some found) member (first_same.trans same.symm)
        rw [toMap, found, only, Option.map_some]

theorem lookup_isSome (buckets : Buckets α) (index : Nat) (key : StringBuffer) :
    (buckets.lookup index key).isSome ↔
      key.text ∈ (buckets index).map fun entry => entry.key.text := by
  simp only [lookup, Option.isSome_map, List.find?_isSome, Entry.hasKey, decide_eq_true_eq,
    List.mem_map]

theorem Coherent.insert (coherent : Coherent place buckets) {index : Nat} {key : StringBuffer}
    (assigned : index = place key.text) (object : α) (leftover : List UInt8) :
    Coherent place (buckets.insert index key object leftover).2 := by
  rw [Buckets.insert]
  split
  · exact coherent
  · rename_i absent
    rw [buckets.lookup_isSome] at absent
    constructor
    · intro other entry member
      by_cases same : other = index
      · subst same
        simp only [Function.update_self] at member
        rcases List.mem_cons.mp member with rfl | old
        · exact assigned.symm
        · exact coherent.placed other entry old
      · simp only [Function.update_of_ne same] at member
        exact coherent.placed other entry member
    · intro other
      by_cases same : other = index
      · subst same
        simp only [Function.update_self, List.map_cons, List.nodup_cons]
        exact ⟨absent, coherent.distinct other⟩
      · simp only [Function.update_of_ne same]
        exact coherent.distinct other

theorem Coherent.delete (coherent : Coherent place buckets) (index : Nat) (key : StringBuffer) :
    Coherent place (buckets.delete index key).2 := by
  rw [Buckets.delete]
  split
  · constructor
    · intro other entry member
      by_cases same : other = index
      · subst same
        simp only [Function.update_self] at member
        exact coherent.placed other entry (List.mem_of_mem_eraseP member)
      · simp only [Function.update_of_ne same] at member
        exact coherent.placed other entry member
    · intro other
      by_cases same : other = index
      · subst same
        simp only [Function.update_self]
        exact (coherent.distinct other).sublist (List.eraseP_sublist.map _)
      · simp only [Function.update_of_ne same]
        exact coherent.distinct other
  · exact coherent

/-- Inserting under a key assigned to its bucket inserts into the map. -/
theorem toMap_insert (buckets : Buckets α) {index : Nat} {key : StringBuffer}
    (assigned : index = place key.text) (object : α) (leftover : List UInt8) :
    ((buckets.insert index key object leftover).1,
        toMap place (buckets.insert index key object leftover).2) =
      (toMap place buckets).insert key.text object := by
  rw [Buckets.insert, StringMap.insert, ← buckets.lookup_placed assigned]
  cases found : buckets.lookup index key with
  | some _ => rfl
  | none =>
      simp only [Option.isSome_none, Bool.false_eq_true, if_false, Prod.mk.injEq, true_and]
      funext string
      by_cases same : string = key.text
      · subst same
        simp [toMap, ← assigned, strdup]
      · rw [Function.update_of_ne same]
        by_cases sameBucket : place string = index
        · simp [toMap, sameBucket, strdup, Ne.symm same]
        · simp [toMap, Function.update_of_ne sameBucket]

/-- Erasing the first entry with one string leaves the search for another string alone. -/
theorem find?_eraseP_of_ne (entries : List (Entry α)) {key : StringBuffer} {string : List UInt8}
    (different : string ≠ key.text) :
    (entries.eraseP (Entry.hasKey key)).find? (fun entry => decide (entry.key.text = string)) =
      entries.find? fun entry => decide (entry.key.text = string) := by
  induction entries with
  | nil => rfl
  | cons entry entries ih =>
      by_cases erased : entry.key.text = key.text
      · simp [Entry.hasKey, erased, different.symm]
      · simp only [List.eraseP_cons, Entry.hasKey, erased, decide_false, cond_false,
          List.find?_cons] at ih ⊢
        rw [ih]

theorem find?_eraseP_self (entries : List (Entry α)) (key : StringBuffer)
    (distinct : (entries.map fun entry => entry.key.text).Nodup) :
    (entries.eraseP (Entry.hasKey key)).find? (fun entry => decide (entry.key.text = key.text)) =
      none := by
  induction entries with
  | nil => rfl
  | cons entry entries ih =>
      rw [List.map_cons, List.nodup_cons] at distinct
      by_cases erased : entry.key.text = key.text
      · have absent : ∀ other ∈ entries, ¬ other.key.text = key.text := by
          intro other member same
          exact distinct.1 (List.mem_map.mpr ⟨other, member, same.trans erased.symm⟩)
        simpa [Entry.hasKey, erased] using absent
      · simp only [List.eraseP_cons, Entry.hasKey, erased, decide_false, cond_false,
          List.find?_cons] at ih ⊢
        exact ih distinct.2

/-- Deleting under a key assigned to its bucket deletes from the map. -/
theorem Coherent.toMap_delete (coherent : Coherent place buckets) {index : Nat}
    {key : StringBuffer} (assigned : index = place key.text) :
    ((buckets.delete index key).1, toMap place (buckets.delete index key).2) =
      (toMap place buckets).delete key.text := by
  rw [Buckets.delete, StringMap.delete, ← buckets.lookup_placed assigned]
  cases found : buckets.lookup index key with
  | none => rfl
  | some _ =>
      simp only [Option.isSome_some, if_true, Prod.mk.injEq, true_and]
      funext string
      by_cases same : string = key.text
      · subst same
        rw [Function.update_self, toMap, ← assigned, Function.update_self,
          find?_eraseP_self _ key (coherent.distinct index), Option.map_none]
      · rw [Function.update_of_ne same]
        by_cases sameBucket : place string = index
        · rw [toMap, sameBucket, Function.update_self, find?_eraseP_of_ne _ same, toMap, sameBucket]
        · rw [toMap, Function.update_of_ne sameBucket, toMap]

end Map

end Buckets

end CmyMessage
