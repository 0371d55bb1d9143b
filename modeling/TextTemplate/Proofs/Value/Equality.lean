import Mathlib.Data.List.Perm.Subperm
import TextTemplate.Proofs.Numeric.Order
import TextTemplate.Proofs.Value.Canonical

/-! # Equality of values

Both equalities are symmetric, the strict one implies the loose one, and neither looks at the order
of fields. The fields of one object are looked up in the other one, and only in this direction; that
the keys of an object are distinct is what makes up for the other direction. -/

namespace TextTemplate

namespace Numeric

/-- What is not a number compares with nothing. -/
theorem compare?_of_isNaN {left : Numeric} (isNaN : left.isNaN = true) (right : Numeric) :
    left.compare? right = none ∧ right.compare? left = none := by
  obtain rfl : left = .double .nan := by
    cases left with
    | double x =>
        cases x with
        | nan => rfl
        | _ => cases isNaN
    | _ => cases isNaN
  cases right with
  | double x => cases x <;> exact ⟨rfl, rfl⟩
  | _ =>
      simp only [compare?, isFinite, Double.isFinite, Bool.not_false, Bool.true_or, Bool.or_true,
        if_true, toDouble]
      exact ⟨rfl, by rw [Double.compare?_swap]; rfl⟩

/-- Equality of numbers is symmetric, also where one is not a number. -/
theorem numericEq_swap (left right : Numeric) : left.numericEq right = right.numericEq left := by
  by_cases isLeft : left.isNaN = true
  · obtain ⟨first, second⟩ := compare?_of_isNaN isLeft right
    rw [numericEq, numericEq, first, second]
  by_cases isRight : right.isNaN = true
  · obtain ⟨first, second⟩ := compare?_of_isNaN isRight left
    rw [numericEq, numericEq, first, second]
  exact numericEq_comm (by simpa using isLeft) (by simpa using isRight)

end Numeric

namespace Value

/-! ### Distinct keys -/

mutual

/-- Whether the keys of every object in a value are distinct, at every depth. -/
def HasDistinctKeys : Value → Prop
  | .array items => AllDistinctKeys items
  | .object fields => (keys fields).Nodup ∧ FieldsDistinctKeys fields
  | .null | .boolean _ | .number _ | .text _ => True

/-- Whether they are in all items of an array. -/
def AllDistinctKeys : List Value → Prop
  | [] => True
  | item :: rest => HasDistinctKeys item ∧ AllDistinctKeys rest

/-- Whether they are in the values of all fields. -/
def FieldsDistinctKeys : List (String × Value) → Prop
  | [] => True
  | (_, value) :: rest => HasDistinctKeys value ∧ FieldsDistinctKeys rest

end

/-- Items have distinct keys if each of them has. -/
theorem allDistinctKeys_iff {items : List Value} :
    AllDistinctKeys items ↔ ∀ item ∈ items, item.HasDistinctKeys := by
  induction items with
  | nil => simp [AllDistinctKeys]
  | cons item rest ih => rw [AllDistinctKeys, ih, List.forall_mem_cons]

/-- Fields have distinct keys if the value of each of them has. -/
theorem fieldsDistinctKeys_iff {fields : List (String × Value)} :
    FieldsDistinctKeys fields ↔ ∀ field ∈ fields, field.2.HasDistinctKeys := by
  induction fields with
  | nil => simp [FieldsDistinctKeys]
  | cons field rest ih => rw [FieldsDistinctKeys, ih, List.forall_mem_cons]

mutual

/-- Data has distinct keys. -/
theorem IsData.hasDistinctKeys : {value : Value} → value.IsData → value.HasDistinctKeys
  | .null, _ | .boolean _, _ | .number _, _ | .text _, _ => trivial
  | .array _, data => AllData.allDistinctKeys data
  | .object _, ⟨nodup, _, data⟩ => ⟨nodup, FieldsData.fieldsDistinctKeys data⟩

/-- Items that are data have distinct keys. -/
theorem AllData.allDistinctKeys : {items : List Value} → AllData items → AllDistinctKeys items
  | [], _ => trivial
  | _ :: _, ⟨first, others⟩ => ⟨first.hasDistinctKeys, AllData.allDistinctKeys others⟩

/-- So have fields that are data. -/
theorem FieldsData.fieldsDistinctKeys : {fields : List (String × Value)} → FieldsData fields →
    FieldsDistinctKeys fields
  | [], _ => trivial
  | (_, _) :: _, ⟨first, others⟩ => ⟨first.hasDistinctKeys, FieldsData.fieldsDistinctKeys others⟩

end

/-- What is read from a JSON text has distinct keys. -/
theorem hasDistinctKeys_of_read? {text : List Char} {value : Value}
    (known : read? text = some value) : value.HasDistinctKeys := by
  obtain ⟨json, -, read⟩ := Option.bind_eq_some_iff.mp known
  obtain ⟨-, read⟩ := Option.ite_none_right_eq_some.mp read
  exact (isData_of_ofJson? read).1.hasDistinctKeys

/-! ### Strict equality -/

/-- What is found under a key is a field. -/
theorem mem_of_field? {key : String} {value : Value} {fields : List (String × Value)}
    (found : field? key fields = some value) : (key, value) ∈ fields := by
  induction fields with
  | nil => cases found
  | cons field rest ih =>
      obtain ⟨other, old⟩ := field
      rw [field?] at found
      split at found
      next same =>
        cases found
        exact same ▸ .head _
      next => exact .tail _ (ih found)

/-- Lists are equal when they are so at every place. -/
theorem strictEqList_iff {lefts rights : List Value} : strictEqList lefts rights = true ↔
    lefts.length = rights.length ∧ ∀ (place : Nat) (left right : Value),
      lefts[place]? = some left → rights[place]? = some right → left.strictEq right = true := by
  induction lefts generalizing rights with
  | nil => cases rights <;> simp [strictEqList]
  | cons left lefts ih =>
      cases rights with
      | nil => simp [strictEqList]
      | cons right rights =>
          rw [strictEqList, Bool.and_eq_true, ih, List.length_cons, List.length_cons,
            Nat.add_right_cancel_iff]
          constructor
          · rintro ⟨first, lengths, others⟩
            refine ⟨lengths, fun place left' right' isLeft isRight => ?_⟩
            cases place with
            | zero =>
                cases isLeft
                cases isRight
                exact first
            | succ place => exact others place left' right' isLeft isRight
          · rintro ⟨lengths, all⟩
            exact ⟨all 0 left right rfl rfl, lengths, fun place left' right' isLeft isRight =>
              all (place + 1) left' right' isLeft isRight⟩

/-- Fields are looked up by their keys. -/
theorem strictEqFields_iff {lefts rights : List (String × Value)} :
    strictEqFields lefts rights = true ↔ ∀ key left, (key, left) ∈ lefts →
      ∃ right, field? key rights = some right ∧ left.strictEq right = true := by
  induction lefts with
  | nil => simp [strictEqFields]
  | cons field lefts ih =>
      obtain ⟨key, left⟩ := field
      rw [strictEqFields, Bool.and_eq_true, ih]
      constructor
      · rintro ⟨first, others⟩ key' left' isMember
        rcases List.mem_cons.mp isMember with same | isRest
        · cases same
          split at first
          next right found => exact ⟨right, found, first⟩
          next => cases first
        · exact others key' left' isRest
      · intro all
        obtain ⟨right, found, equal⟩ := all key left (.head _)
        rw [found]
        exact ⟨equal, fun key' left' isRest => all key' left' (.tail _ isRest)⟩

/-- Where keys are the same, there is a field for each field. -/
theorem exists_field {key : String} {value : Value} {fields fields' : List (String × Value)}
    (sameKeys : (keys fields).Perm (keys fields')) (isField : (key, value) ∈ fields) :
    ∃ value', (key, value') ∈ fields' := by
  have isKey : key ∈ keys fields' := sameKeys.subset (List.mem_map.mpr ⟨_, isField, rfl⟩)
  obtain ⟨⟨_, value'⟩, isField', rfl⟩ := List.mem_map.mp isKey
  exact ⟨value', isField'⟩

/-- Objects with distinct keys are equal when they have the same keys and equal values under each
of them. -/
theorem strictEq_object_iff {lefts rights : List (String × Value)} (distinct : (keys lefts).Nodup)
    (distinct' : (keys rights).Nodup) : (Value.object lefts).strictEq (.object rights) = true ↔
      (keys lefts).Perm (keys rights) ∧ ∀ key left right, (key, left) ∈ lefts →
        (key, right) ∈ rights → left.strictEq right = true := by
  rw [strictEq, Bool.and_eq_true, beq_iff_eq, strictEqFields_iff]
  constructor
  · rintro ⟨lengths, found⟩
    have subset : keys lefts ⊆ keys rights := by
      intro key isKey
      obtain ⟨⟨_, left⟩, isField, rfl⟩ := List.mem_map.mp isKey
      obtain ⟨right, isRight, -⟩ := found _ left isField
      exact List.mem_map.mpr ⟨_, mem_of_field? isRight, rfl⟩
    -- As there are no more keys on the right than on the left, none of them is new.
    have enough : (keys rights).length ≤ (keys lefts).length := by
      rw [keys, keys, List.length_map, List.length_map, lengths]
    refine ⟨(List.subperm_of_subset distinct subset).perm_of_length_le enough, ?_⟩
    intro key left right isLeft isRight
    obtain ⟨right', isRight', equal⟩ := found key left isLeft
    rw [field?_of_mem distinct' isRight] at isRight'
    cases isRight'
    exact equal
  · rintro ⟨sameKeys, equal⟩
    refine ⟨by simpa [keys] using sameKeys.length_eq, fun key left isLeft => ?_⟩
    obtain ⟨right, isRight⟩ := exists_field sameKeys isLeft
    exact ⟨right, field?_of_mem distinct' isRight, equal _ left right isLeft isRight⟩

mutual

/-- Strict equality is symmetric. -/
theorem strictEq_comm : (left right : Value) → left.HasDistinctKeys → right.HasDistinctKeys →
    left.strictEq right = right.strictEq left
  | .null, right, _, _ => by cases right <;> rfl
  | .boolean value, right, _, _ => by
      cases right with
      | boolean other => exact Bool.beq_comm
      | _ => rfl
  | .number value, right, _, _ => by
      cases right with
      | number other => exact Numeric.numericEq_swap value other
      | _ => rfl
  | .text value, right, _, _ => by
      cases right with
      | text other => exact Bool.beq_comm
      | _ => rfl
  | .array items, right, distinct, distinct' => by
      cases right with
      | array others => exact strictEqList_comm items others distinct distinct'
      | _ => rfl
  | .object fields, right, distinct, distinct' => by
      cases right with
      | object others =>
          rw [Bool.eq_iff_iff, strictEq_object_iff distinct.1 distinct'.1,
            strictEq_object_iff distinct'.1 distinct.1, List.perm_comm]
          refine and_congr_right fun _ => ?_
          -- Fields that are compared have the same key, and a key has one value.
          have inside (key : String) (left right : Value) (isLeft : (key, left) ∈ fields)
              (isRight : (key, right) ∈ others) : left.strictEq right = right.strictEq left :=
            strictEq_comm_of_mem fields distinct.2 _ isLeft right
              (fieldsDistinctKeys_iff.mp distinct'.2 _ isRight)
          constructor
          · intro equal key right left isRight isLeft
            rw [← inside key left right isLeft isRight]
            exact equal key left right isLeft isRight
          · intro equal key left right isLeft isRight
            rw [inside key left right isLeft isRight]
            exact equal key right left isRight isLeft
      | _ => rfl

/-- Strict equality of items is symmetric. -/
theorem strictEqList_comm : (lefts rights : List Value) → AllDistinctKeys lefts →
    AllDistinctKeys rights → strictEqList lefts rights = strictEqList rights lefts
  | [], rights, _, _ => by cases rights <;> rfl
  | left :: lefts, rights, ⟨first, others⟩, distinct' => by
      cases rights with
      | nil => rfl
      | cons right rights =>
          rw [strictEqList, strictEqList, strictEq_comm left right first distinct'.1,
            strictEqList_comm lefts rights others distinct'.2]

/-- So it is for the value of each field of an object. -/
theorem strictEq_comm_of_mem : (fields : List (String × Value)) → FieldsDistinctKeys fields →
    ∀ field ∈ fields, ∀ right : Value, right.HasDistinctKeys →
      field.2.strictEq right = right.strictEq field.2
  | [], _ => nofun
  | (_, value) :: rest, ⟨first, others⟩ => List.forall_mem_cons.mpr
      ⟨fun right distinct' => strictEq_comm value right first distinct',
        strictEq_comm_of_mem rest others⟩

end

/-! ### Loose equality -/

/-- Next to an array, loose equality is strict. -/
theorem looseEq_array (items : List Value) (right : Value) :
    looseEq (.array items) right = strictEq (.array items) right ∧
      looseEq right (.array items) = strictEq right (.array items) := by
  cases right <;> exact ⟨rfl, rfl⟩

/-- Next to an object, loose equality is strict. -/
theorem looseEq_object (fields : List (String × Value)) (right : Value) :
    looseEq (.object fields) right = strictEq (.object fields) right ∧
      looseEq right (.object fields) = strictEq right (.object fields) := by
  cases right <;> exact ⟨rfl, rfl⟩

/-- Loose equality is symmetric. -/
theorem looseEq_comm {left right : Value} (distinct : left.HasDistinctKeys)
    (distinct' : right.HasDistinctKeys) : left.looseEq right = right.looseEq left := by
  have strict := strictEq_comm left right distinct distinct'
  cases left with
  | null => cases right <;> rfl
  | boolean value =>
      cases right with
      | boolean other | number other => exact Numeric.numericEq_swap _ _
      | _ => rfl
  | number value =>
      cases right with
      | boolean other | number other => exact Numeric.numericEq_swap _ _
      | _ => rfl
  | text value =>
      cases right with
      | text other => exact strict
      | _ => rfl
  | array items => rw [(looseEq_array items right).1, (looseEq_array items right).2, strict]
  | object fields => rw [(looseEq_object fields right).1, (looseEq_object fields right).2, strict]

/-- An integer is converted to a number. -/
theorem isNaN_ofInt (value : Int) : (Numeric.double (.ofInt value)).isNaN = false := by
  cases found : Double.ofInt value with
  | nan => exact absurd found (Double.nearest_ne_nan _ _ _)
  | _ => rfl

/-- Values that are strictly equal are so loosely. -/
theorem looseEq_of_strictEq {left right : Value} (equal : left.strictEq right = true) :
    left.looseEq right = true := by
  cases left with
  | null =>
      cases right with
      | null => rfl
      | _ => cases equal
  | boolean value =>
      cases right with
      | boolean other =>
          obtain rfl : value = other := beq_iff_eq.mp equal
          exact Numeric.numericEq_self (isNaN_ofInt _)
      | _ => cases equal
  | number value =>
      cases right with
      | number other => exact equal
      | _ => cases equal
  | text value =>
      cases right with
      | text other => exact equal
      | _ => cases equal
  | array items => exact (looseEq_array items right).1.trans equal
  | object fields => exact (looseEq_object fields right).1.trans equal

/-! ### The order of fields -/

/-- Whether two values differ in nothing but the order of the fields of their objects, at any
depth. -/
inductive Reordered : Value → Value → Prop where
  | refl (value : Value) : Reordered value value
  | array {items items' : List Value} : items.length = items'.length →
      (∀ (place : Nat) (item item' : Value), items[place]? = some item →
        items'[place]? = some item' → Reordered item item') →
      Reordered (.array items) (.array items')
  | object {fields fields' : List (String × Value)} : (keys fields).Perm (keys fields') →
      (∀ key value value', (key, value) ∈ fields → (key, value') ∈ fields' →
        Reordered value value') →
      Reordered (.object fields) (.object fields')

namespace Reordered

variable {left left' : Value}

/-- A list of the same length has an item at every place of the other. -/
theorem exists_item {place : Nat} {item : Value} {items items' : List Value}
    (lengths : items.length = items'.length) (isItem : items[place]? = some item) :
    ∃ item', items'[place]? = some item' := by
  obtain ⟨inside, -⟩ := List.getElem?_eq_some_iff.mp isItem
  exact ⟨_, List.getElem?_eq_getElem (lengths ▸ inside)⟩

/-- The keys stay distinct in another order. -/
theorem hasDistinctKeys (reordered : Reordered left left') :
    left.HasDistinctKeys → left'.HasDistinctKeys := by
  induction reordered with
  | refl => exact id
  | @array items items' lengths _ ih =>
      intro distinct
      refine allDistinctKeys_iff.mpr fun item' isItem => ?_
      obtain ⟨place, isItem'⟩ := List.getElem?_of_mem isItem
      obtain ⟨item, isThere⟩ := exists_item lengths.symm isItem'
      exact ih place item item' isThere isItem'
        (allDistinctKeys_iff.mp distinct _ (List.mem_of_getElem? isThere))
  | @object fields fields' sameKeys _ ih =>
      rintro ⟨nodup, distinct⟩
      refine ⟨sameKeys.nodup_iff.mp nodup, fieldsDistinctKeys_iff.mpr ?_⟩
      rintro ⟨key, value'⟩ isField
      obtain ⟨value, isField'⟩ := exists_field sameKeys.symm isField
      exact ih key value value' isField' isField (fieldsDistinctKeys_iff.mp distinct _ isField')

/-- Strict equality does not look at the order of fields. -/
theorem strictEq_eq (reordered : Reordered left left') : left.HasDistinctKeys → ∀ right : Value,
    right.HasDistinctKeys → left'.strictEq right = left.strictEq right := by
  induction reordered with
  | refl => exact fun _ _ _ => rfl
  | @array items items' lengths inner ih =>
      intro distinct right distinct'
      cases right with
      | array others =>
          -- The items at one place are reordered themselves, so the induction applies to them.
          have same (place : Nat) (item item' other : Value) (isItem : items[place]? = some item)
              (isItem' : items'[place]? = some item') (isOther : others[place]? = some other) :
              item'.strictEq other = item.strictEq other :=
            ih place item item' isItem isItem'
              (allDistinctKeys_iff.mp distinct _ (List.mem_of_getElem? isItem)) other
              (allDistinctKeys_iff.mp distinct' _ (List.mem_of_getElem? isOther))
          rw [Bool.eq_iff_iff, strictEq, strictEq, strictEqList_iff, strictEqList_iff, lengths]
          refine and_congr_right fun _ => ?_
          constructor
          · intro equal place item other isItem isOther
            obtain ⟨item', isItem'⟩ := exists_item lengths isItem
            rw [← same place item item' other isItem isItem' isOther]
            exact equal place item' other isItem' isOther
          · intro equal place item' other isItem' isOther
            obtain ⟨item, isItem⟩ := exists_item lengths.symm isItem'
            rw [same place item item' other isItem isItem' isOther]
            exact equal place item other isItem isOther
      | _ => rfl
  | @object fields fields' sameKeys inner ih =>
      intro distinct right distinct'
      cases right with
      | object others =>
          have same (key : String) (value value' other : Value) (isField : (key, value) ∈ fields)
              (isField' : (key, value') ∈ fields') (isOther : (key, other) ∈ others) :
              value'.strictEq other = value.strictEq other :=
            ih key value value' isField isField'
              (fieldsDistinctKeys_iff.mp distinct.2 _ isField) other
              (fieldsDistinctKeys_iff.mp distinct'.2 _ isOther)
          rw [Bool.eq_iff_iff, strictEq_object_iff (sameKeys.nodup_iff.mp distinct.1) distinct'.1,
            strictEq_object_iff distinct.1 distinct'.1, sameKeys.congr_left]
          refine and_congr_right fun _ => ?_
          constructor
          · intro equal key value other isField isOther
            obtain ⟨value', isField'⟩ := exists_field sameKeys isField
            rw [← same key value value' other isField isField' isOther]
            exact equal key value' other isField' isOther
          · intro equal key value' other isField' isOther
            obtain ⟨value, isField⟩ := exists_field sameKeys.symm isField'
            rw [same key value value' other isField isField' isOther]
            exact equal key value other isField isOther
      | _ => rfl

/-- Neither does loose equality. -/
theorem looseEq_eq (reordered : Reordered left left') (distinct : left.HasDistinctKeys)
    {right : Value} (distinct' : right.HasDistinctKeys) :
    left'.looseEq right = left.looseEq right := by
  have strict := reordered.strictEq_eq distinct right distinct'
  cases reordered with
  | refl => rfl
  | @array items items' =>
      rw [(looseEq_array items right).1, (looseEq_array items' right).1, strict]
  | @object fields fields' =>
      rw [(looseEq_object fields right).1, (looseEq_object fields' right).1, strict]

end Reordered

/-! ### Coherence -/

/-- Both equalities are symmetric, strict equality implies loose equality, and the order of fields
matters to neither of them, on either side and at any depth. -/
theorem equality_coherent {left right : Value} (distinct : left.HasDistinctKeys)
    (distinct' : right.HasDistinctKeys) :
    left.strictEq right = right.strictEq left ∧ left.looseEq right = right.looseEq left ∧
      (left.strictEq right = true → left.looseEq right = true) ∧
      ∀ left' right', Reordered left left' → Reordered right right' →
        left'.strictEq right' = left.strictEq right ∧
          left'.looseEq right' = left.looseEq right := by
  refine ⟨strictEq_comm left right distinct distinct', looseEq_comm distinct distinct',
    looseEq_of_strictEq, fun left' right' reordered reordered' => ?_⟩
  have keeps := reordered.hasDistinctKeys distinct
  have keeps' := reordered'.hasDistinctKeys distinct'
  constructor
  · rw [strictEq_comm left' right' keeps keeps', reordered'.strictEq_eq distinct' left' keeps,
      strictEq_comm right left' distinct' keeps, reordered.strictEq_eq distinct right distinct']
  · rw [looseEq_comm keeps keeps', reordered'.looseEq_eq distinct' keeps,
      looseEq_comm distinct' keeps, reordered.looseEq_eq distinct distinct']

/-- Two values that are equal although their fields stand in different orders, inside and outside,
and although their numbers have different representations. -/
theorem equality_coherent_of_objects :
    let left : Value := .object [("a", .array [.number (.integer 1),
      .object [("x", .null), ("y", .text "2")]]), ("b", .boolean true)]
    let right : Value := .object [("b", .boolean true), ("a", .array [.number (.decimal ⟨10, 1⟩),
      .object [("y", .text "2"), ("x", .null)]])]
    left.HasDistinctKeys ∧ right.HasDistinctKeys ∧ left.strictEq right = true ∧
      left.strictEq right = right.strictEq left ∧ left.looseEq right = right.looseEq left ∧
        (left.strictEq right = true → left.looseEq right = true) ∧
        ∀ left' right', Reordered left left' → Reordered right right' →
          left'.strictEq right' = left.strictEq right ∧
            left'.looseEq right' = left.looseEq right := by
  intro left right
  have distinct : left.HasDistinctKeys := by
    simp [left, HasDistinctKeys, AllDistinctKeys, FieldsDistinctKeys, keys]
  have distinct' : right.HasDistinctKeys := by
    simp [right, HasDistinctKeys, AllDistinctKeys, FieldsDistinctKeys, keys]
  exact ⟨distinct, distinct', by decide +kernel, equality_coherent distinct distinct'⟩

end Value

end TextTemplate
