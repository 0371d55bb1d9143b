import TextTemplate.Proofs.Json.Reading
import TextTemplate.Proofs.Numeric.Written
import TextTemplate.Proofs.Value.Numbers
import TextTemplate.Value.Equality

/-! # Data is written canonically

Values that are read from JSON have distinct keys, and their numbers are literals. Written as JSON
and read again, such a value keeps everything but the representation of its numbers, and its text
does not change any more. -/

namespace TextTemplate.Value

/-! ### Distinct keys -/

/-- The keys of some fields, in order. -/
def keys (fields : List (String × Value)) : List String := fields.map Prod.fst

/-- A new key comes last, and a known one stays where it is. -/
theorem keys_insertField (key : String) (value : Value) (fields : List (String × Value)) :
    keys (insertField key value fields) =
      if key ∈ keys fields then keys fields else keys fields ++ [key] := by
  induction fields with
  | nil => rfl
  | cons field rest ih =>
      obtain ⟨other, old⟩ := field
      rw [insertField]
      split
      next same => simp [keys, same]
      next different =>
        have others : key ∈ keys ((other, old) :: rest) ↔ key ∈ keys rest := by
          simp [keys, Ne.symm different]
        simp only [others]
        rw [keys, List.map_cons, ← keys, ih]
        split <;> rfl

/-- What stands in the fields after an insertion stood there before, or is new. -/
theorem mem_of_mem_insertField {key : String} {value : Value} {fields : List (String × Value)}
    {field : String × Value} (isMember : field ∈ insertField key value fields) :
    field = (key, value) ∨ field ∈ fields := by
  induction fields with
  | nil => exact .inl (List.mem_singleton.mp isMember)
  | cons first rest ih =>
      obtain ⟨other, old⟩ := first
      rw [insertField] at isMember
      split at isMember
      next =>
        exact (List.mem_cons.mp isMember).imp_right (List.mem_cons_of_mem _)
      next =>
        rcases List.mem_cons.mp isMember with rfl | isRest
        · exact .inr (.head _)
        · exact (ih isRest).imp_right (List.mem_cons_of_mem _)

/-- The first key stays the first one. -/
theorem head?_insertField (key : String) (value : Value) (known rest : List (String × Value)) :
    (keys (insertField key value known ++ rest)).head? =
      (keys (known ++ (key, value) :: rest)).head? := by
  have append (left right : List (String × Value)) :
      keys (left ++ right) = keys left ++ keys right := List.map_append
  rw [append, append, keys_insertField]
  split
  next isKnown =>
    rw [List.head?_append_of_ne_nil _ (List.ne_nil_of_mem isKnown),
      List.head?_append_of_ne_nil _ (List.ne_nil_of_mem isKnown)]
  next => rw [List.append_assoc]; rfl

/-- Inserting fields one by one keeps keys distinct, leaves the first key where it is and adds no
other fields. -/
theorem foldl_insertField (fields known : List (String × Value)) (nodup : (keys known).Nodup) :
    let result := fields.foldl (fun known (key, value) => insertField key value known) known
    (keys result).Nodup ∧ (keys result).head? = (keys (known ++ fields)).head? ∧
      ∀ field ∈ result, field ∈ known ∨ field ∈ fields := by
  induction fields generalizing known with
  | nil => exact ⟨nodup, by rw [List.append_nil]; rfl, fun _ => .inl⟩
  | cons field rest ih =>
      obtain ⟨key, value⟩ := field
      have inserted : (keys (insertField key value known)).Nodup := by
        rw [keys_insertField]
        split
        next => exact nodup
        next fresh => exact List.nodup_append.mpr ⟨nodup, List.nodup_singleton key, by
          rintro _ isKnown _ isNew rfl
          exact fresh (List.mem_singleton.mp isNew ▸ isKnown)⟩
      obtain ⟨distinct, head, members⟩ := ih (insertField key value known) inserted
      refine ⟨distinct, head.trans (head?_insertField key value known rest), ?_⟩
      intro field isMember
      rcases members field isMember with isInserted | isRest
      · exact (mem_of_mem_insertField isInserted).elim
          (fun same => .inr (same ▸ .head _)) .inl
      · exact .inr (.tail _ isRest)

/-- A field with a new key is put at the end. -/
theorem insertField_of_notMem {key : String} {fields : List (String × Value)}
    (fresh : key ∉ keys fields) (value : Value) :
    insertField key value fields = fields ++ [(key, value)] := by
  induction fields with
  | nil => rfl
  | cons field rest ih =>
      obtain ⟨different, fresh⟩ := not_or.mp (mt List.mem_cons.mpr fresh)
      rw [insertField, if_neg (Ne.symm different), ih fresh]
      rfl

/-- Inserting fields with distinct keys puts them one behind the other. -/
theorem foldl_insertField_of_nodup (fields known : List (String × Value))
    (nodup : (keys (known ++ fields)).Nodup) :
    fields.foldl (fun known (key, value) => insertField key value known) known =
      known ++ fields := by
  induction fields generalizing known with
  | nil => exact (List.append_nil known).symm
  | cons field rest ih =>
      obtain ⟨key, value⟩ := field
      have fresh : key ∉ keys known := by
        rw [keys, List.map_append, List.nodup_append] at nodup
        exact fun isKnown => nodup.2.2 key isKnown key (.head _) rfl
      have reordered : known ++ (key, value) :: rest = (known ++ [(key, value)]) ++ rest := by simp
      rw [reordered] at nodup ⊢
      simp only [List.foldl_cons, insertField_of_notMem fresh value]
      exact ih _ nodup

/-- Fields with distinct keys stay as they are. -/
theorem distinctFields_of_nodup {fields : List (String × Value)} (nodup : (keys fields).Nodup) :
    distinctFields fields = fields :=
  foldl_insertField_of_nodup fields [] nodup

/-- Where keys are distinct, a field is found by its key. -/
theorem field?_of_mem {key : String} {value : Value} {fields : List (String × Value)}
    (nodup : (keys fields).Nodup) (isMember : (key, value) ∈ fields) :
    field? key fields = some value := by
  induction fields with
  | nil => cases isMember
  | cons first rest ih =>
      obtain ⟨other, old⟩ := first
      obtain ⟨fresh, nodup⟩ := List.nodup_cons.mp nodup
      rw [field?]
      rcases List.mem_cons.mp isMember with same | isRest
      · cases same
        exact if_pos rfl
      · rw [if_neg, ih nodup isRest]
        rintro rfl
        exact fresh (List.mem_map.mpr ⟨_, isRest, rfl⟩)

/-! ### Data -/

mutual

/-- What a value is like that is read from JSON: its finite numbers are literals, and its objects
have distinct keys, the first of which is not the reserved one. -/
def IsData : Value → Prop
  | .number value => value.isFinite = true → value.IsLiteral
  | .array items => AllData items
  | .object fields =>
      (keys fields).Nodup ∧ (keys fields).head? ≠ some spelledNumberKey ∧ FieldsData fields
  | .null | .boolean _ | .text _ => True

/-- Whether all items of an array are like that. -/
def AllData : List Value → Prop
  | [] => True
  | item :: rest => IsData item ∧ AllData rest

/-- Whether the values of all fields are like that. -/
def FieldsData : List (String × Value) → Prop
  | [] => True
  | (_, value) :: rest => IsData value ∧ FieldsData rest

end

mutual

/-- The finite numbers of data are literals. -/
theorem isLiteral_of_mem_numbers : {value : Value} → value.IsData → ∀ number ∈ value.numbers,
    number.isFinite = true → number.IsLiteral
  | .null, _ | .boolean _, _ | .text _, _ => nofun
  | .number _, literal => fun _ isMember => List.mem_singleton.mp isMember ▸ literal
  | .array _, data => isLiteral_of_mem_numbersOfList data
  | .object _, ⟨_, _, data⟩ => isLiteral_of_mem_numbersOfFields data

/-- So are those of items. -/
theorem isLiteral_of_mem_numbersOfList : {items : List Value} → AllData items →
    ∀ number ∈ numbersOfList items, number.isFinite = true → number.IsLiteral
  | [], _ => nofun
  | _ :: _, ⟨first, others⟩ => List.forall_mem_append.mpr
      ⟨isLiteral_of_mem_numbers first, isLiteral_of_mem_numbersOfList others⟩

/-- So are those of fields. -/
theorem isLiteral_of_mem_numbersOfFields : {fields : List (String × Value)} → FieldsData fields →
    ∀ number ∈ numbersOfFields fields, number.isFinite = true → number.IsLiteral
  | [], _ => nofun
  | (_, _) :: _, ⟨first, others⟩ => List.forall_mem_append.mpr
      ⟨isLiteral_of_mem_numbers first, isLiteral_of_mem_numbersOfFields others⟩

end

/-- Fields are data if the value of each of them is. -/
theorem fieldsData_iff {fields : List (String × Value)} :
    FieldsData fields ↔ ∀ field ∈ fields, field.2.IsData := by
  induction fields with
  | nil => simp [FieldsData]
  | cons field rest ih => rw [FieldsData, ih, List.forall_mem_cons]

/-- Fields are as deep as the deepest of them. -/
theorem depthOfFields_le_iff {fields : List (String × Value)} {bound : Nat} :
    Json.depthOfFields (fieldsToJson fields) ≤ bound ↔
      ∀ field ∈ fields, field.2.toJson.depth ≤ bound := by
  induction fields with
  | nil => simp [fieldsToJson, Json.depthOfFields]
  | cons field rest ih =>
      rw [fieldsToJson, Json.depthOfFields, Nat.max_le, ih, List.forall_mem_cons]

/-- Dropping the repeated keys of fields makes data of them, and nothing deeper. -/
theorem isData_distinctFields {fields : List (String × Value)} (data : FieldsData fields)
    (reserved : (keys fields).head? ≠ some spelledNumberKey) :
    (Value.object (distinctFields fields)).IsData ∧
      Json.depthOfFields (fieldsToJson (distinctFields fields)) ≤
        Json.depthOfFields (fieldsToJson fields) := by
  obtain ⟨nodup, head, members⟩ := foldl_insertField fields [] List.nodup_nil
  have subset : ∀ field ∈ distinctFields fields, field ∈ fields := fun field isMember =>
    (members field isMember).resolve_left List.not_mem_nil
  refine ⟨⟨nodup, ?_, fieldsData_iff.mpr ?_⟩, depthOfFields_le_iff.mpr ?_⟩
  · intro same
    exact reserved (head.symm.trans same)
  · intro field isMember
    exact fieldsData_iff.mp data field (subset field isMember)
  · intro field isMember
    exact depthOfFields_le_iff.mp (Nat.le_refl _) field (subset field isMember)

/-- Numbers and the nulls in their places are not deep. -/
theorem depth_toJson_number (value : Numeric) : (Value.number value).toJson.depth = 0 := by
  rw [toJson]
  split <;> rfl

/-- A spelled number is a literal. -/
theorem isData_of_spelledNumber? {fields : List (String × Json)} {value : Value}
    (read : spelledNumber? fields = some value) :
    value.IsData ∧ value.toJson.depth ≤ (Json.object fields).depth := by
  unfold spelledNumber? at read
  split at read
  next =>
    split at read
    next =>
      cases read
      exact ⟨Numeric.isLiteral_ofSpelling, (depth_toJson_number _).le.trans (Nat.zero_le _)⟩
    next => cases read
  next => cases read

/-- The first key of other fields is not the one that a spelled number has. -/
theorem head?_ne_of_not_startsSpelledNumber {fields : List (String × Json)}
    (other : ¬startsSpelledNumber fields = true) :
    (fields.map Prod.fst).head? ≠ some spelledNumberKey := by
  cases fields with
  | nil => exact nofun
  | cons field rest => simpa [startsSpelledNumber] using other

mutual

/-- What is read from a JSON tree is data, and is written no deeper than the tree. -/
theorem isData_of_ofJson? : {json : Json} → {value : Value} → ofJson? json = some value →
    value.IsData ∧ value.toJson.depth ≤ json.depth
  | .null, _, read | .boolean _, _, read | .string _, _, read => by
      cases read
      exact ⟨trivial, Nat.le_refl _⟩
  | .number spelling, _, read => by
      cases read
      exact ⟨Numeric.isLiteral_ofSpelling, (depth_toJson_number _).le⟩
  | .unreadable, _, read => by cases read
  | .array items, _, read => by
      obtain ⟨values, found, rfl⟩ := Option.map_eq_some_iff.mp read
      obtain ⟨data, depth⟩ := allData_of_listOfJson? found
      exact ⟨data, Nat.succ_le_succ depth⟩
  | .object fields, _, read => by
      rw [ofJson?] at read
      split at read
      next => exact isData_of_spelledNumber? read
      next reserved =>
        obtain ⟨known, found, rfl⟩ := Option.map_eq_some_iff.mp read
        obtain ⟨data, depth, same⟩ := fieldsData_of_fieldsOfJson? found
        obtain ⟨isData, shallower⟩ := isData_distinctFields data
          (same ▸ head?_ne_of_not_startsSpelledNumber reserved)
        exact ⟨isData, Nat.succ_le_succ (Nat.le_trans shallower depth)⟩

/-- Items that are read are data, no deeper than the text. -/
theorem allData_of_listOfJson? : {items : List Json} → {values : List Value} →
    listOfJson? items = some values →
    AllData values ∧ Json.depthOfList (listToJson values) ≤ Json.depthOfList items
  | [], _, read => by
      cases read
      exact ⟨trivial, Nat.le_refl _⟩
  | item :: rest, _, read => by
      obtain ⟨value, found, read⟩ := Option.bind_eq_some_iff.mp read
      obtain ⟨values, foundRest, read⟩ := Option.bind_eq_some_iff.mp read
      cases read
      obtain ⟨first, depth⟩ := isData_of_ofJson? found
      obtain ⟨others, depths⟩ := allData_of_listOfJson? foundRest
      exact ⟨⟨first, others⟩, max_le_max depth depths⟩

/-- Fields that are read are data, no deeper than the text, with the same keys. -/
theorem fieldsData_of_fieldsOfJson? : {fields : List (String × Json)} →
    {known : List (String × Value)} → fieldsOfJson? fields = some known →
    FieldsData known ∧ Json.depthOfFields (fieldsToJson known) ≤ Json.depthOfFields fields ∧
      keys known = fields.map Prod.fst
  | [], _, read => by
      cases read
      exact ⟨trivial, Nat.le_refl _, rfl⟩
  | (key, item) :: rest, _, read => by
      obtain ⟨value, found, read⟩ := Option.bind_eq_some_iff.mp read
      obtain ⟨known, foundRest, read⟩ := Option.bind_eq_some_iff.mp read
      cases read
      obtain ⟨first, depth⟩ := isData_of_ofJson? found
      obtain ⟨others, depths, same⟩ := fieldsData_of_fieldsOfJson? foundRest
      exact ⟨⟨first, others⟩, max_le_max depth depths, congrArg (key :: ·) same⟩

end

/-! ### Writing and reading -/

mutual

/-- Every value has a text. -/
theorem writable_toJson : (value : Value) → value.toJson.Writable
  | .null | .boolean _ | .text _ => trivial
  | .number value => by
      rw [toJson]
      split
      next finite =>
        obtain ⟨d, found⟩ := Numeric.exists_toDecimal? finite
        rw [Json.Writable, String.toList_ofList]
        exact Numeric.isNumber_display found
      next => trivial
  | .array items => allWritable_listToJson items
  | .object fields => fieldsWritable_fieldsToJson fields

/-- Items have texts. -/
theorem allWritable_listToJson : (items : List Value) → Json.AllWritable (listToJson items)
  | [] => trivial
  | item :: rest => ⟨writable_toJson item, allWritable_listToJson rest⟩

/-- Fields have texts. -/
theorem fieldsWritable_fieldsToJson : (fields : List (String × Value)) →
    Json.FieldsWritable (fieldsToJson fields)
  | [] => trivial
  | (_, value) :: rest => ⟨writable_toJson value, fieldsWritable_fieldsToJson rest⟩

end

/-- The number that is read from the display of a number. -/
def respelled (value : Numeric) : Numeric := .ofSpelling value.display

/-- A change of the numbers leaves the keys. -/
theorem keys_mapNumbersOfFields (change : Numeric → Numeric) (fields : List (String × Value)) :
    keys (mapNumbersOfFields change fields) = keys fields := by
  induction fields with
  | nil => rfl
  | cons field rest ih => exact congrArg (field.1 :: ·) ih

mutual

/-- What is read from the JSON of a value is the value with its numbers read from their displays. -/
theorem ofJson?_toJson : {value : Value} → value.IsData →
    (∀ number ∈ value.numbers, number.isFinite = true) →
    ofJson? value.toJson = some (value.mapNumbers respelled)
  | .null, _, _ | .boolean _, _, _ | .text _, _, _ => rfl
  | .number value, _, finite => by
      rw [toJson, if_pos (finite value (List.mem_singleton_self _)), ofJson?, String.toList_ofList]
      rfl
  | .array items, data, finite => by
      rw [toJson, ofJson?, listOfJson?_listToJson data finite]
      rfl
  | .object fields, ⟨nodup, reserved, data⟩, finite => by
      have other : startsSpelledNumber (fieldsToJson fields) = false := by
        cases fields with
        | nil => rfl
        | cons field rest => simpa [keys, fieldsToJson, startsSpelledNumber] using reserved
      have distinct : (keys (mapNumbersOfFields respelled fields)).Nodup := by
        rwa [keys_mapNumbersOfFields]
      rw [toJson, ofJson?, other, if_neg Bool.false_ne_true, fieldsOfJson?_fieldsToJson data finite,
        Option.map_some, distinctFields_of_nodup distinct]
      rfl

/-- Items are read back with their numbers respelled. -/
theorem listOfJson?_listToJson : {items : List Value} → AllData items →
    (∀ number ∈ numbersOfList items, number.isFinite = true) →
    listOfJson? (listToJson items) = some (mapNumbersOfList respelled items)
  | [], _, _ => rfl
  | item :: rest, ⟨first, others⟩, finite => by
      obtain ⟨finite, finites⟩ := List.forall_mem_append.mp finite
      rw [listToJson, listOfJson?, ofJson?_toJson first finite,
        listOfJson?_listToJson others finites]
      rfl

/-- Fields are read back with their numbers respelled. -/
theorem fieldsOfJson?_fieldsToJson : {fields : List (String × Value)} → FieldsData fields →
    (∀ number ∈ numbersOfFields fields, number.isFinite = true) →
    fieldsOfJson? (fieldsToJson fields) = some (mapNumbersOfFields respelled fields)
  | [], _, _ => rfl
  | (key, value) :: rest, ⟨first, others⟩, finite => by
      obtain ⟨finite, finites⟩ := List.forall_mem_append.mp finite
      rw [fieldsToJson, fieldsOfJson?, ofJson?_toJson first finite,
        fieldsOfJson?_fieldsToJson others finites]
      rfl

end

/-! ### Equality -/

section Equality

variable {change change' : Numeric → Numeric}

mutual

/-- Two values with equal numbers in the places of those of one value are equal. -/
theorem strictEq_mapNumbers : {value : Value} → value.IsData →
    (∀ number ∈ value.numbers, (change number).numericEq (change' number) = true) →
    (value.mapNumbers change).strictEq (value.mapNumbers change') = true
  | .null, _, _ => rfl
  | .boolean _, _, _ | .text _, _, _ => beq_self_eq_true _
  | .number value, _, equal => equal value (List.mem_singleton_self _)
  | .array items, data, equal => strictEqList_mapNumbers data equal
  | .object fields, ⟨nodup, _, data⟩, equal => by
      rw [mapNumbers, mapNumbers, strictEq, length_mapNumbersOfFields, length_mapNumbersOfFields,
        beq_self_eq_true, Bool.true_and]
      exact strictEqFields_mapNumbers data equal fun key value isMember => by
        rw [field?_mapNumbersOfFields, field?_of_mem nodup isMember, Option.map_some]

/-- Items stay equal when equal numbers are put for each number. -/
theorem strictEqList_mapNumbers : {items : List Value} → AllData items →
    (∀ number ∈ numbersOfList items, (change number).numericEq (change' number) = true) →
    strictEqList (mapNumbersOfList change items) (mapNumbersOfList change' items) = true
  | [], _, _ => rfl
  | item :: rest, ⟨first, others⟩, equal => by
      obtain ⟨equal, equals⟩ := List.forall_mem_append.mp equal
      rw [mapNumbersOfList, mapNumbersOfList, strictEqList, strictEq_mapNumbers first equal,
        strictEqList_mapNumbers others equals, Bool.true_and]

/-- So do fields, whatever else the other object has. -/
theorem strictEqFields_mapNumbers : {fields rights : List (String × Value)} → FieldsData fields →
    (∀ number ∈ numbersOfFields fields, (change number).numericEq (change' number) = true) →
    (∀ key value, (key, value) ∈ fields → field? key rights = some (value.mapNumbers change')) →
    strictEqFields (mapNumbersOfFields change fields) rights = true
  | [], _, _, _, _ => rfl
  | (key, value) :: rest, _, ⟨first, others⟩, equal, found => by
      obtain ⟨equal, equals⟩ := List.forall_mem_append.mp equal
      rw [mapNumbersOfFields, strictEqFields, found key value (.head _)]
      simp only [strictEq_mapNumbers first equal, Bool.true_and]
      exact strictEqFields_mapNumbers others equals fun key value isRest =>
        found key value (.tail _ isRest)

end

end Equality

/-! ### Canonical texts -/

/-- Data whose numbers are finite is written as a text from which an equal value is read, with the
same keys in the same order in every object, and that value is written as the same text. -/
theorem data_canonical {text : List Char} {value : Value} (known : read? text = some value)
    (finite : ∀ number ∈ value.numbers, number.isFinite = true) :
    ∃ again, read? value.toJson.write = some again ∧
      again.strictEq value = true ∧ value.strictEq again = true ∧
      again.skeleton = value.skeleton ∧ again.toJson.write = value.toJson.write := by
  obtain ⟨json, -, read⟩ := Option.bind_eq_some_iff.mp known
  obtain ⟨shallow, read⟩ := Option.ite_none_right_eq_some.mp read
  obtain ⟨data, depth⟩ := isData_of_ofJson? read
  have literal (number : Numeric) (isMember : number ∈ value.numbers) : number.IsLiteral :=
    isLiteral_of_mem_numbers data number isMember (finite number isMember)
  have readAgain : read? value.toJson.write = some (value.mapNumbers respelled) := by
    rw [read?, Json.read?_write (writable_toJson value), Option.bind_some,
      if_pos (Nat.le_trans depth shallow), ofJson?_toJson data finite]
  -- The value is mapped as well, by the identity, so that both sides have one form.
  have equal : (value.mapNumbers respelled).strictEq (value.mapNumbers id) = true :=
    strictEq_mapNumbers data fun number isMember =>
      (Numeric.ofSpelling_display (literal number isMember)).2.2.1
  have equal' : (value.mapNumbers id).strictEq (value.mapNumbers respelled) = true :=
    strictEq_mapNumbers data fun number isMember =>
      (Numeric.ofSpelling_display (literal number isMember)).2.2.2
  have sameJson : (value.mapNumbers respelled).toJson = value.toJson := by
    apply toJson_mapNumbers
    intro number isMember
    obtain ⟨finiteAgain, display, -, -⟩ := Numeric.ofSpelling_display (literal number isMember)
    exact ⟨finiteAgain.trans (finite number isMember).symm, display⟩
  rw [mapNumbers_id] at equal equal'
  exact ⟨_, readAgain, equal, equal', skeleton_mapNumbers value, congrArg Json.write sameJson⟩

/-- Data with a repeated key and numbers of all representations, two of which change theirs: the
decimals `1.0` and `1e20` are written as a short and a long integer. -/
theorem data_canonical_of_numbers :
    let text := "\x7b\"b\":[1.0,2,1e20],\"a\":\x7b\"y\":-0.50\x7d,\"b\":[1e20,1.0]\x7d".toList
    ∃ value, read? text = some value ∧ (∀ number ∈ value.numbers, number.isFinite = true) ∧
      ∃ again, read? value.toJson.write = some again ∧
        again.strictEq value = true ∧ value.strictEq again = true ∧
        again.skeleton = value.skeleton ∧ again.toJson.write = value.toJson.write := by
  intro text
  have allFinite :
      (read? text).map (fun value => value.numbers.all Numeric.isFinite) = some true := by
    decide +kernel
  obtain ⟨value, known, finite⟩ := Option.map_eq_some_iff.mp allFinite
  rw [List.all_eq_true] at finite
  exact ⟨value, known, finite, data_canonical known finite⟩

end TextTemplate.Value
