import TextTemplate.Value.Basic

/-! # Registries

Methods by name. A name may contain dots, which mean nothing here. -/

namespace TextTemplate

/-- A method: it makes one value of the values of its arguments. -/
abbrev Method := List Value → Value

/-- Methods under distinct names. -/
structure Registry where
  methods : List (String × Method)

namespace Registry

/-- The registry without methods. -/
def empty : Registry := ⟨[]⟩

/-- The method of a name. -/
def get? (registry : Registry) (name : String) : Option Method :=
  (registry.methods.find? (·.1 == name)).map (·.2)

/-- Whether there is a method of a name. -/
def contains (registry : Registry) (name : String) : Bool := (registry.get? name).isSome

/-- The registry with a method under a name, in place of the one before if there was one. -/
def register (registry : Registry) (name : String) (method : Method) : Registry :=
  ⟨(name, method) :: registry.methods.filter (·.1 != name)⟩

/-- The result of the method of a name. -/
def call? (registry : Registry) (name : String) (arguments : List Value) : Option Value :=
  (registry.get? name).map (· arguments)

/-- The names, by the order of their characters. -/
def names (registry : Registry) : List String :=
  (registry.methods.map (·.1)).mergeSort (· ≤ ·)

end Registry

end TextTemplate
