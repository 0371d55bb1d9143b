/-! # JSON trees

A JSON text as a tree. Numbers keep their spelling, because a spelling decides how a number is
represented; objects keep their fields in order, repeated names included. -/

namespace TextTemplate

/-- A JSON value. -/
inductive Json where
  | null
  | boolean (value : Bool)
  /-- A number, as it is spelled. -/
  | number (spelling : String)
  | string (value : String)
  /-- A well-formed value that has no reading: a string with half of a surrogate pair, or an
  object with such a name. It can be skipped, but not used. -/
  | unreadable
  | array (items : List Json)
  | object (fields : List (String × Json))

namespace Json

instance : Inhabited Json := ⟨.null⟩

/-- The number that a natural number is written as. -/
def ofNat (value : Nat) : Json := .number (toString value)

mutual

/-- How many arrays and objects lie around the innermost value. -/
def depth : Json → Nat
  | .array items => depthOfList items + 1
  | .object fields => depthOfFields fields + 1
  | _ => 0

/-- The largest depth in a list of values. -/
def depthOfList : List Json → Nat
  | [] => 0
  | item :: rest => max (depth item) (depthOfList rest)

/-- The largest depth among the values of a list of fields. -/
def depthOfFields : List (String × Json) → Nat
  | [] => 0
  | (_, value) :: rest => max (depth value) (depthOfFields rest)

end

/-- The deepest nesting that is read. -/
def maxDepth : Nat := 127

end Json

end TextTemplate
