import Mathlib.Data.List.Basic
import TextTemplate.Value.Basic

/-! # The numbers in a value

A value is told apart from its numbers: what is left without them are the lengths of its arrays and
the keys of its objects. Other numbers in the same places change neither the keys nor, if they are
displayed alike, the text of the value. -/

namespace TextTemplate.Value

/-! ### Numbers and keys -/

mutual

/-- All numbers in a value, at every depth. -/
def numbers : Value → List Numeric
  | .number value => [value]
  | .array items => numbersOfList items
  | .object fields => numbersOfFields fields
  | .null | .boolean _ | .text _ => []

/-- All numbers in the items of an array. -/
def numbersOfList : List Value → List Numeric
  | [] => []
  | item :: rest => numbers item ++ numbersOfList rest

/-- All numbers in the fields of an object. -/
def numbersOfFields : List (String × Value) → List Numeric
  | [] => []
  | (_, value) :: rest => numbers value ++ numbersOfFields rest

end

mutual

/-- A value without its numbers, texts and truth values: what is left are the lengths of its arrays
and the keys of its objects in their order, at every depth. -/
def skeleton : Value → Value
  | .array items => .array (skeletonOfList items)
  | .object fields => .object (skeletonOfFields fields)
  | .null | .boolean _ | .number _ | .text _ => .null

/-- The items of an array without their numbers, texts and truth values. -/
def skeletonOfList : List Value → List Value
  | [] => []
  | item :: rest => skeleton item :: skeletonOfList rest

/-- The fields of an object without their numbers, texts and truth values. -/
def skeletonOfFields : List (String × Value) → List (String × Value)
  | [] => []
  | (key, value) :: rest => (key, skeleton value) :: skeletonOfFields rest

end

mutual

/-- A value with other numbers in the places of its own. -/
def mapNumbers (change : Numeric → Numeric) : Value → Value
  | .number value => .number (change value)
  | .array items => .array (mapNumbersOfList change items)
  | .object fields => .object (mapNumbersOfFields change fields)
  | .null => .null
  | .boolean value => .boolean value
  | .text value => .text value

/-- The items of an array with other numbers. -/
def mapNumbersOfList (change : Numeric → Numeric) : List Value → List Value
  | [] => []
  | item :: rest => mapNumbers change item :: mapNumbersOfList change rest

/-- The fields of an object with other numbers. -/
def mapNumbersOfFields (change : Numeric → Numeric) :
    List (String × Value) → List (String × Value)
  | [] => []
  | (key, value) :: rest => (key, mapNumbers change value) :: mapNumbersOfFields change rest

end

/-! ### Other numbers -/

variable {change : Numeric → Numeric}

mutual

/-- The keys do not depend on the numbers. -/
theorem skeleton_mapNumbers : (value : Value) → (value.mapNumbers change).skeleton = value.skeleton
  | .null | .boolean _ | .number _ | .text _ => rfl
  | .array items => congrArg Value.array (skeletonOfList_mapNumbers items)
  | .object fields => congrArg Value.object (skeletonOfFields_mapNumbers fields)

/-- Nor do the keys of items. -/
theorem skeletonOfList_mapNumbers : (items : List Value) →
    skeletonOfList (mapNumbersOfList change items) = skeletonOfList items
  | [] => rfl
  | item :: rest => congrArg₂ List.cons (skeleton_mapNumbers item) (skeletonOfList_mapNumbers rest)

/-- Nor do the keys of fields. -/
theorem skeletonOfFields_mapNumbers : (fields : List (String × Value)) →
    skeletonOfFields (mapNumbersOfFields change fields) = skeletonOfFields fields
  | [] => rfl
  | (key, value) :: rest => congrArg₂ (fun value rest => (key, value) :: rest)
      (skeleton_mapNumbers value) (skeletonOfFields_mapNumbers rest)

end

mutual

/-- A value is its own when its numbers are left alone. -/
theorem mapNumbers_id : (value : Value) → value.mapNumbers id = value
  | .null | .boolean _ | .number _ | .text _ => rfl
  | .array items => congrArg Value.array (mapNumbersOfList_id items)
  | .object fields => congrArg Value.object (mapNumbersOfFields_id fields)

/-- Items are their own when their numbers are left alone. -/
theorem mapNumbersOfList_id : (items : List Value) → mapNumbersOfList id items = items
  | [] => rfl
  | item :: rest => congrArg₂ List.cons (mapNumbers_id item) (mapNumbersOfList_id rest)

/-- Fields are their own when their numbers are left alone. -/
theorem mapNumbersOfFields_id : (fields : List (String × Value)) →
    mapNumbersOfFields id fields = fields
  | [] => rfl
  | (key, value) :: rest => congrArg₂ (fun value rest => (key, value) :: rest)
      (mapNumbers_id value) (mapNumbersOfFields_id rest)

end

mutual

/-- A value is written alike when its numbers are. -/
theorem toJson_mapNumbers : (value : Value) →
    (∀ number ∈ value.numbers, (change number).isFinite = number.isFinite ∧
      (change number).display = number.display) →
    (value.mapNumbers change).toJson = value.toJson
  | .null, _ | .boolean _, _ | .text _, _ => rfl
  | .number value, alike => by
      obtain ⟨finite, display⟩ := alike value (List.mem_singleton_self _)
      rw [mapNumbers, toJson, toJson, finite, display]
  | .array items, alike => congrArg Json.array (listToJson_mapNumbers items alike)
  | .object fields, alike => congrArg Json.object (fieldsToJson_mapNumbers fields alike)

/-- Items are written as before under the same condition. -/
theorem listToJson_mapNumbers : (items : List Value) →
    (∀ number ∈ numbersOfList items, (change number).isFinite = number.isFinite ∧
      (change number).display = number.display) →
    listToJson (mapNumbersOfList change items) = listToJson items
  | [], _ => rfl
  | item :: rest, alike => by
      obtain ⟨first, others⟩ := List.forall_mem_append.mp alike
      exact congrArg₂ List.cons (toJson_mapNumbers item first) (listToJson_mapNumbers rest others)

/-- Fields are written as before under the same condition. -/
theorem fieldsToJson_mapNumbers : (fields : List (String × Value)) →
    (∀ number ∈ numbersOfFields fields, (change number).isFinite = number.isFinite ∧
      (change number).display = number.display) →
    fieldsToJson (mapNumbersOfFields change fields) = fieldsToJson fields
  | [], _ => rfl
  | (key, value) :: rest, alike => by
      obtain ⟨first, others⟩ := List.forall_mem_append.mp alike
      exact congrArg₂ (fun value rest => (key, value) :: rest) (toJson_mapNumbers value first)
        (fieldsToJson_mapNumbers rest others)

end

/-- A change of the numbers changes the value under a key. -/
theorem field?_mapNumbersOfFields (change : Numeric → Numeric) (key : String)
    (fields : List (String × Value)) :
    field? key (mapNumbersOfFields change fields) =
      (field? key fields).map (mapNumbers change) := by
  induction fields with
  | nil => rfl
  | cons field rest ih =>
      rw [mapNumbersOfFields, field?, field?, ih]
      split <;> rfl

/-- It leaves the number of fields. -/
theorem length_mapNumbersOfFields (change : Numeric → Numeric) (fields : List (String × Value)) :
    (mapNumbersOfFields change fields).length = fields.length := by
  induction fields with
  | nil => rfl
  | cons field rest ih => exact congrArg (· + 1) ih

end TextTemplate.Value
