import Mathlib.Logic.Basic
import TextTemplate.Environment
import TextTemplate.Value.Operation

/-! # Paths and members

The keys of a dotted path are looked up one by one as they are in brackets. Two ways of looking up
differ only where a key may be a number: in a path it is a place in an array and nothing else, and
in brackets it may be signed, have a point, or be the place of a character. -/

namespace TextTemplate

/-! ### Dotted paths -/

/-- A name and keys with dots between them. -/
def dottedPath (name : List Char) (keys : List (List Char)) : List Char :=
  name ++ keys.flatMap ('.' :: ·)

/-- A text without dots is a segment. -/
theorem pathSegments_of_noDot {name : List Char} (noDot : '.' ∉ name) :
    pathSegments name = [name] := by
  induction name with
  | nil => rfl
  | cons c name ih =>
      obtain ⟨different, noDot⟩ := not_or.mp (mt List.mem_cons.mpr noDot)
      rw [pathSegments, if_neg (Ne.symm different), ih noDot]

/-- The first segment ends at the first dot. -/
theorem pathSegments_append {name : List Char} (noDot : '.' ∉ name) (rest : List Char) :
    pathSegments (name ++ '.' :: rest) = name :: pathSegments rest := by
  induction name with
  | nil => rw [List.nil_append, pathSegments, if_pos rfl]
  | cons c name ih =>
      obtain ⟨different, noDot⟩ := not_or.mp (mt List.mem_cons.mpr noDot)
      rw [List.cons_append, pathSegments, if_neg (Ne.symm different), ih noDot]

/-- A dotted path has the name and the keys for its segments. -/
theorem pathSegments_dottedPath {name : List Char} {keys : List (List Char)} (noDot : '.' ∉ name)
    (noDots : ∀ key ∈ keys, '.' ∉ key) : pathSegments (dottedPath name keys) = name :: keys := by
  induction keys generalizing name with
  | nil =>
      rw [dottedPath, List.flatMap_nil, List.append_nil]
      exact pathSegments_of_noDot noDot
  | cons key keys ih =>
      obtain ⟨keyNoDot, noDots⟩ := List.forall_mem_cons.mp noDots
      rw [dottedPath, List.flatMap_cons, List.cons_append, pathSegments_append noDot]
      exact congrArg (name :: ·) (ih keyNoDot noDots)

/-! ### Keys that are no numbers -/

/-- Whether a text does not start as a number may: with a digit, a sign or a dot. -/
def StartsNoNumber (key : List Char) : Prop :=
  ∀ c ∈ key.head?, c.isDigit = false ∧ c ∉ ['+', '-', '.']

instance (key : List Char) : Decidable (StartsNoNumber key) :=
  match key with
  | [] => isTrue nofun
  | c :: _ => decidable_of_iff (c.isDigit = false ∧ c ∉ ['+', '-', '.']) (by simp [StartsNoNumber])

namespace StartsNoNumber

variable {key : List Char}

/-- Such a text spells no number. -/
theorem parse?_eq_none (other : StartsNoNumber key) : Numeric.parse? key = none := by
  cases key with
  | nil => rfl
  | cons c rest =>
      obtain ⟨noDigit, noSign⟩ := other c rfl
      simp only [List.mem_cons, List.not_mem_nil, or_false, not_or] at noSign
      obtain ⟨noPlus, noMinus, noPoint⟩ := noSign
      simp [Numeric.parse?, noPlus, noMinus, noPoint, noDigit]

/-- It spells no place. -/
theorem place?_eq_none (other : StartsNoNumber key) : Value.place? key = none := by
  cases key with
  | nil => rfl
  | cons c rest =>
      obtain ⟨noDigit, noSign⟩ := other c rfl
      simp only [List.mem_cons, List.not_mem_nil, or_false, not_or] at noSign
      obtain ⟨noPlus, -, -⟩ := noSign
      simp [Value.place?, noPlus, noDigit]

end StartsNoNumber

/-! ### Members by name -/

namespace Value

/-- The length is asked for by its name. -/
theorem lengthOf?_text (length : Nat) (key : String) :
    lengthOf? length (.text key) =
      if key = "length" then some (.number (.ofLength length)) else none := by
  unfold lengthOf?
  split
  next same =>
    cases same
    rw [if_pos rfl]
  next other => rw [if_neg fun same => other (congrArg Value.text same)]

/-- Nothing lies in null. -/
theorem foldl_member_null (keys : List Value) : keys.foldl member .null = .null := by
  induction keys with
  | nil => rfl
  | cons key keys ih => exact ih

/-- The length of a value as a value, where it has one. -/
def lengthValue (value : Value) : Value :=
  (value.length?.map fun length => Value.number (.ofLength length)).getD .null

/-- A length has no members. -/
theorem member_lengthValue (value key : Value) : value.lengthValue.member key = .null := by
  rw [lengthValue]
  cases value.length? <;> rfl

/-- Under a key that is no number lies the segment of that name, or else the length if that is
asked for. -/
theorem member_text (value : Value) {key : String} (other : StartsNoNumber key.toList) :
    value.member (.text key) =
      (value.segment? key).getD (if key = "length" then value.lengthValue else .null) := by
  have noPlace := other.place?_eq_none
  have noIndex : placeOf? (.text key) = none := by
    rw [placeOf?, other.parse?_eq_none, Option.bind_none]
  cases value with
  | array items =>
      rw [member, lengthOf?_text, noIndex, segment?, noPlace]
      split <;> rfl
  | text value =>
      rw [member, lengthOf?_text, noIndex]
      split <;> rfl
  | object fields =>
      rw [member, display, String.ofList_toList, segment?]
      cases field? key fields with
      | some inner => rfl
      | none => exact (ite_self _).symm
  | null | boolean | number => exact (ite_self _).symm

/-- The keys of a path are looked up one by one as members. -/
theorem foldl_member_eq_follow (value : Value) {keys : List String}
    (names : ∀ key ∈ keys, StartsNoNumber key.toList) :
    (keys.map Value.text).foldl member value = Environment.follow value keys := by
  induction keys generalizing value with
  | nil => rfl
  | cons key rest ih =>
      obtain ⟨here, there⟩ := List.forall_mem_cons.mp names
      rw [List.map_cons, List.foldl_cons, member_text value here, Environment.follow]
      cases value.segment? key with
      | some inner => exact ih inner there
      | none =>
          rw [Option.getD_none]
          by_cases isLength : key = "length"
          · rw [if_pos isLength]
            cases rest with
            | nil => rw [if_pos ⟨isLength, rfl⟩]; rfl
            | cons next rest =>
                -- Behind a length nothing is found any more, in brackets as in a path.
                rw [List.map_cons, List.foldl_cons, member_lengthValue, foldl_member_null,
                  if_neg fun both => Bool.false_ne_true both.2]
          · rw [if_neg isLength, foldl_member_null, if_neg fun both => isLength both.1]

end Value

namespace Environment

/-- The value at a dotted path is what the keys behind its name find as members, one in the other,
in the value of the name. -/
theorem resolve_eq_foldl_member (env : Environment) {name : String} {keys : List String}
    (noDot : '.' ∉ name.toList) (noDots : ∀ key ∈ keys, '.' ∉ key.toList)
    (names : ∀ key ∈ keys, StartsNoNumber key.toList) :
    env.resolve (String.ofList (dottedPath name.toList (keys.map String.toList))) =
      (keys.map Value.text).foldl Value.member ((env.get? name).getD .null) := by
  have segments : (pathSegments (dottedPath name.toList (keys.map String.toList))).map
      String.ofList = name :: keys := by
    rw [pathSegments_dottedPath noDot (by simpa using noDots), List.map_cons, List.map_map]
    simp [Function.comp_def]
  simp only [resolve, String.toList_ofList, segments]
  cases env.get? name with
  | some value => exact (Value.foldl_member_eq_follow value names).symm
  | none => exact (Value.foldl_member_null _).symm

/-- A loop variable that hides data, with a field named like the length in it: the length of the
array inside is found at the end of a path, and nothing is found behind the field. -/
theorem resolve_eq_foldl_member_of_lengths :
    let inner : Value := .object [("length", .text "abc"), ("tags", .array [.null, .text "x"])]
    let env : Environment := ⟨.object [("a", .boolean true), ("b", inner)], [[("a", inner)]]⟩
    let atEnd := ["tags", "length"]
    let inMiddle := ["length", "x", "length"]
    ('.' ∉ "a".toList ∧ (∀ key ∈ atEnd ++ inMiddle, '.' ∉ key.toList) ∧
        ∀ key ∈ atEnd ++ inMiddle, StartsNoNumber key.toList) ∧
      env.resolve (String.ofList (dottedPath "a".toList (atEnd.map String.toList))) =
        (atEnd.map Value.text).foldl Value.member ((env.get? "a").getD .null) ∧
      env.resolve (String.ofList (dottedPath "a".toList (inMiddle.map String.toList))) =
        (inMiddle.map Value.text).foldl Value.member ((env.get? "a").getD .null) := by
  intro inner env atEnd inMiddle
  have noDot : '.' ∉ "a".toList := by decide
  have noDots : ∀ key ∈ atEnd ++ inMiddle, '.' ∉ key.toList := by decide
  have names : ∀ key ∈ atEnd ++ inMiddle, StartsNoNumber key.toList := by decide
  obtain ⟨noDotsEnd, noDotsMiddle⟩ := List.forall_mem_append.mp noDots
  obtain ⟨namesEnd, namesMiddle⟩ := List.forall_mem_append.mp names
  exact ⟨⟨noDot, noDots, names⟩, resolve_eq_foldl_member env noDot noDotsEnd namesEnd,
    resolve_eq_foldl_member env noDot noDotsMiddle namesMiddle⟩

end Environment

end TextTemplate
