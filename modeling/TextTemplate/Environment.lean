import TextTemplate.Value.Basic

/-! # Environments

The data of a template with the variables of the loops around a place in it. A name means the
variable of the innermost loop that has one, and otherwise what the data has under it. -/

namespace TextTemplate

/-- The variables of one loop, the latest first. -/
abbrev Scope := List (String × Value)

/-- Data and loop variables. -/
structure Environment where
  data : Value
  /-- The variables of the loops, the innermost one first. -/
  scopes : List Scope

namespace Environment

/-- The data alone. -/
def ofData (data : Value) : Environment := ⟨data, []⟩

/-- The environment inside one more loop. -/
def push (env : Environment) : Environment := { env with scopes := [] :: env.scopes }

/-- The environment outside of the innermost loop. -/
def pop (env : Environment) : Environment := { env with scopes := env.scopes.tail }

/-- The environment with a variable of the innermost loop. Outside of all loops nothing can be
defined. -/
def define (env : Environment) (name : String) (value : Value) : Environment :=
  match env.scopes with
  | scope :: outer => { env with scopes := ((name, value) :: scope) :: outer }
  | [] => env

/-- The value of a name. -/
def get? (env : Environment) (name : String) : Option Value :=
  (env.scopes.findSome? (Value.field? name)).or (env.data.segment? name)

/-- The value at the segments of a path inside a value. The last one may ask for the length, where
nothing has that name. -/
def follow (value : Value) : List String → Value
  | [] => value
  | key :: rest =>
      match value.segment? key with
      | some inner => follow inner rest
      | none =>
          -- A field of that name comes first.
          if key = "length" ∧ rest.isEmpty then
            (value.length?.map fun length => Value.number (.ofLength length)).getD .null
          else .null

end Environment

/-- The segments of a dotted path. -/
def pathSegments : List Char → List (List Char)
  | [] => [[]]
  | c :: rest =>
      if c = '.' then [] :: pathSegments rest
      else
        match pathSegments rest with
        | segment :: others => (c :: segment) :: others
        | [] => [[c]]

/-- The first segment of a dotted path, which is the name that the path starts from. -/
def pathRoot (path : String) : String :=
  String.ofList (path.toList.takeWhile (· ≠ '.'))

/-- The value at a dotted path; null if there is none. -/
def Environment.resolve (env : Environment) (path : String) : Value :=
  match (pathSegments path.toList).map String.ofList with
  | name :: rest =>
      match env.get? name with
      | some value => follow value rest
      | none => .null
  | [] => .null

end TextTemplate
