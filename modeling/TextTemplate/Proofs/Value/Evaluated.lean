import TextTemplate.Proofs.Value.Equality
import TextTemplate.Registry.Standard
import TextTemplate.Rendering

/-! # Keys of evaluated values

Evaluation makes no object of its own: the objects in its values are those of the data and those
that methods give. So the keys of every object stay distinct, inside of loops as well, and equality
is symmetric wherever a template asks for it. -/

namespace TextTemplate

/-! ### Looking up -/

namespace Value

variable {value inner left right : Value}

/-- A field of an object has distinct keys. -/
theorem HasDistinctKeys.of_field? {name : String} {fields : List (String × Value)}
    (distinct : (object fields).HasDistinctKeys) (found : field? name fields = some inner) :
    inner.HasDistinctKeys :=
  fieldsDistinctKeys_iff.mp distinct.2 _ (mem_of_field? found)

/-- An item of an array has distinct keys. -/
theorem HasDistinctKeys.of_getElem? {place : Nat} {items : List Value}
    (distinct : (array items).HasDistinctKeys) (found : items[place]? = some inner) :
    inner.HasDistinctKeys :=
  allDistinctKeys_iff.mp distinct inner (List.mem_of_getElem? found)

/-- A value inside another one has distinct keys if that one has. -/
theorem HasDistinctKeys.of_segment? {name : String} (distinct : value.HasDistinctKeys)
    (found : value.segment? name = some inner) : inner.HasDistinctKeys := by
  cases value with
  | object fields => exact distinct.of_field? found
  | array items =>
      obtain ⟨place, -, isItem⟩ := Option.bind_eq_some_iff.mp found
      exact distinct.of_getElem? isItem
  | null | boolean | number | text => cases found

/-- A length has no keys. -/
theorem HasDistinctKeys.getD_lengthOf? (distinct : value.HasDistinctKeys) (length : Nat)
    (key : Value) : ((lengthOf? length key).getD value).HasDistinctKeys := by
  unfold lengthOf?
  split
  next => trivial
  next => exact distinct

/-- What is found under a key has distinct keys. -/
theorem HasDistinctKeys.member (distinct : value.HasDistinctKeys) (key : Value) :
    (value.member key).HasDistinctKeys := by
  cases value with
  | array items =>
      refine HasDistinctKeys.getD_lengthOf? ?_ _ _
      cases found : (placeOf? key).bind fun place => items[place]? with
      | none => trivial
      | some item =>
          obtain ⟨place, -, isItem⟩ := Option.bind_eq_some_iff.mp found
          exact distinct.of_getElem? isItem
  | object fields =>
      rw [Value.member]
      cases found : field? (String.ofList key.display) fields with
      | none => trivial
      | some field => exact distinct.of_field? found
  | text value =>
      refine HasDistinctKeys.getD_lengthOf? ?_ _ _
      split <;> trivial
  | null | boolean | number => trivial

/-- A binary operator gives one of its operands, or a value without keys. -/
theorem HasDistinctKeys.binary (operator : BinaryOperator) (distinct : left.HasDistinctKeys)
    (distinct' : right.HasDistinctKeys) : (binary operator left right).HasDistinctKeys := by
  -- The logical operators are those that give one of their operands.
  cases operator with
  | or =>
      rw [Value.binary]
      split
      next => exact distinct
      next => exact distinct'
  | and =>
      rw [Value.binary]
      split
      next => exact distinct'
      next => exact distinct
  | add =>
      rw [Value.binary]
      unfold plus
      split <;> trivial
  | _ => trivial

/-- A prefix operator makes a value without keys. -/
theorem hasDistinctKeys_unary (operator : UnaryOperator) (operand : Value) :
    (unary operator operand).HasDistinctKeys := by
  cases operator <;> trivial

end Value

/-! ### Environments and registries -/

namespace Environment

/-- Whether the data and all variables of an environment have distinct keys. -/
structure HasDistinctKeys (env : Environment) : Prop where
  data : env.data.HasDistinctKeys
  scopes : ∀ scope ∈ env.scopes, ∀ field ∈ scope, field.2.HasDistinctKeys

namespace HasDistinctKeys

variable {env : Environment}

/-- Data alone has no variables. -/
theorem ofData {value : Value} (distinct : value.HasDistinctKeys) :
    (Environment.ofData value).HasDistinctKeys := ⟨distinct, nofun⟩

/-- The value of a name has distinct keys. -/
theorem get? (distinct : env.HasDistinctKeys) {name : String} {value : Value}
    (found : env.get? name = some value) : value.HasDistinctKeys := by
  rcases Option.or_eq_some_iff.mp found with isVariable | ⟨-, isData⟩
  · obtain ⟨scope, isScope, isField⟩ := List.exists_of_findSome?_eq_some isVariable
    exact distinct.scopes scope isScope _ (Value.mem_of_field? isField)
  · exact distinct.data.of_segment? isData

/-- Every value at the segments of a path has distinct keys. -/
theorem follow {value : Value} (distinct : value.HasDistinctKeys) (names : List String) :
    (Environment.follow value names).HasDistinctKeys := by
  induction names generalizing value with
  | nil => exact distinct
  | cons name rest ih =>
      rw [Environment.follow]
      split
      next inner found => exact ih (distinct.of_segment? found)
      next =>
        split
        next => cases value.length? <;> trivial
        next => trivial

/-- The value at a path has distinct keys. -/
theorem resolve (distinct : env.HasDistinctKeys) (path : String) :
    (env.resolve path).HasDistinctKeys := by
  rw [Environment.resolve]
  split
  next name rest _ =>
    split
    next value found => exact follow (distinct.get? found) rest
    next => trivial
  next => trivial

/-- A new loop has no variables yet. -/
theorem push (distinct : env.HasDistinctKeys) : env.push.HasDistinctKeys :=
  ⟨distinct.data, List.forall_mem_cons.mpr ⟨nofun, distinct.scopes⟩⟩

/-- A variable may get any value with distinct keys. -/
theorem define (distinct : env.HasDistinctKeys) (name : String) {value : Value}
    (distinct' : value.HasDistinctKeys) : (env.define name value).HasDistinctKeys := by
  rw [Environment.define]
  split
  next scope outer scopes =>
    have known := distinct.scopes
    rw [scopes, List.forall_mem_cons] at known
    exact ⟨distinct.data, List.forall_mem_cons.mpr
      ⟨List.forall_mem_cons.mpr ⟨distinct', known.1⟩, known.2⟩⟩
  next => exact distinct

/-- The environment inside of a loop has distinct keys when the value that the loop runs through
has. -/
theorem enter (distinct : env.HasDistinctKeys) {source : Value}
    (distinct' : source.HasDistinctKeys) {entry : Value × Value} (isEntry : entry ∈ source.entries)
    (item : String) (index : Option String) : (env.enter item index entry).HasDistinctKeys := by
  have both : entry.1.HasDistinctKeys ∧ entry.2.HasDistinctKeys := by
    cases source with
    | array items =>
        obtain ⟨⟨value, place⟩, isItem, rfl⟩ := List.mem_map.mp isEntry
        exact ⟨Value.allDistinctKeys_iff.mp distinct' value (List.fst_mem_of_mem_zipIdx isItem),
          trivial⟩
    | object fields =>
        obtain ⟨⟨key, value⟩, isField, rfl⟩ := List.mem_map.mp isEntry
        exact ⟨Value.fieldsDistinctKeys_iff.mp distinct'.2 _ isField, trivial⟩
    | null | boolean | number | text => cases isEntry
  have inside := distinct.push.define item both.1
  cases index with
  | none => exact inside
  | some name => exact inside.define name both.2

end HasDistinctKeys

end Environment

namespace Registry

/-- Whether methods give values with distinct keys for such values. -/
def KeepsDistinctKeys (methods : Registry) : Prop :=
  ∀ method ∈ methods.methods, ∀ arguments : List Value,
    (∀ argument ∈ arguments, argument.HasDistinctKeys) → (method.2 arguments).HasDistinctKeys

/-- The result of a method that is found has distinct keys. -/
theorem KeepsDistinctKeys.call? {methods : Registry} (keeps : methods.KeepsDistinctKeys)
    {name : String} {arguments : List Value} {value : Value}
    (distinct : ∀ argument ∈ arguments, argument.HasDistinctKeys)
    (called : methods.call? name arguments = some value) : value.HasDistinctKeys := by
  obtain ⟨method, known, rfl⟩ := Option.map_eq_some_iff.mp called
  obtain ⟨entry, found, rfl⟩ := Option.map_eq_some_iff.mp known
  exact keeps entry (List.mem_of_find?_eq_some found) arguments distinct

/-- The standard methods do. -/
theorem keepsDistinctKeys_standard : standard.KeepsDistinctKeys := by
  intro method isMethod arguments distinct
  -- Only the first argument and the list of all of them can have fields inside.
  have isFirst : (Standard.first arguments).HasDistinctKeys := by
    cases arguments with
    | nil => trivial
    | cons first rest => exact distinct first (.head _)
  have isList : (Value.array arguments).HasDistinctKeys := Value.allDistinctKeys_iff.mpr distinct
  have isTotal : (Standard.total arguments).HasDistinctKeys := by
    rw [Standard.total]
    split <;> trivial
  simp only [standard, List.mem_cons, List.not_mem_nil, or_false] at isMethod
  rcases isMethod with rfl | rfl | rfl | rfl | rfl | rfl | rfl | rfl | rfl | rfl | rfl | rfl |
    rfl | rfl
  all_goals trivial

end Registry

/-! ### Evaluation -/

namespace Expr

variable {env : Environment} {methods : Registry}

mutual

/-- The value of an expression has distinct keys when the environment has and the methods keep
them. -/
theorem hasDistinctKeys_eval (distinct : env.HasDistinctKeys) (keeps : methods.KeepsDistinctKeys) :
    (expr : Expr) → (expr.eval env methods).HasDistinctKeys
  | .number _ _ | .text _ _ | .boolean _ _ => trivial
  | .array items _ => Value.allDistinctKeys_iff.mpr (hasDistinctKeys_evalList distinct keeps items)
  | .variable path _ => distinct.resolve path
  | .binary operator left right _ =>
      (hasDistinctKeys_eval distinct keeps left).binary operator
        (hasDistinctKeys_eval distinct keeps right)
  | .unary operator operand _ => Value.hasDistinctKeys_unary operator (operand.eval env methods)
  | .call name arguments _ => by
      have inside := hasDistinctKeys_evalList distinct keeps arguments
      rw [eval]
      cases called : methods.call? name (evalList env methods arguments) with
      | none => trivial
      | some value => exact keeps.call? inside called
  | .member object key _ => (hasDistinctKeys_eval distinct keeps object).member (key.eval env methods)

/-- The values of the items of a list have distinct keys. -/
theorem hasDistinctKeys_evalList (distinct : env.HasDistinctKeys)
    (keeps : methods.KeepsDistinctKeys) :
    (exprs : List Expr) → ∀ value ∈ evalList env methods exprs, value.HasDistinctKeys
  | [] => nofun
  | expr :: rest => List.forall_mem_cons.mpr
      ⟨hasDistinctKeys_eval distinct keeps expr, hasDistinctKeys_evalList distinct keeps rest⟩

end

/-- In a template the operands of the equality operators may be swapped. -/
theorem eval_equality_comm (distinct : env.HasDistinctKeys) (keeps : methods.KeepsDistinctKeys)
    {operator : BinaryOperator}
    (isEquality : operator ∈ [.equal, .notEqual, .strictEqual, .strictNotEqual])
    (left right : Expr) (span span' : Span) :
    (binary operator left right span).eval env methods =
      (binary operator right left span').eval env methods := by
  have isLeft := hasDistinctKeys_eval distinct keeps left
  have isRight := hasDistinctKeys_eval distinct keeps right
  have strict := Value.strictEq_comm _ _ isLeft isRight
  have loose := Value.looseEq_comm isLeft isRight
  simp only [List.mem_cons, List.not_mem_nil, or_false] at isEquality
  rcases isEquality with rfl | rfl | rfl | rfl
  all_goals simp only [eval, Value.binary, strict, loose]

/-- That is so over any data that is read from a JSON text, with the standard methods. -/
theorem eval_equality_comm_of_read? {text : List Char} {data : Value}
    (known : Value.read? text = some data) {operator : BinaryOperator}
    (isEquality : operator ∈ [.equal, .notEqual, .strictEqual, .strictNotEqual])
    (left right : Expr) (span span' : Span) :
    (binary operator left right span).eval (.ofData data) .standard =
      (binary operator right left span').eval (.ofData data) .standard :=
  eval_equality_comm (.ofData (Value.hasDistinctKeys_of_read? known))
    Registry.keepsDistinctKeys_standard isEquality left right span span'

end Expr

end TextTemplate
