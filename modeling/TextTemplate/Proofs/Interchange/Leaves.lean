import TextTemplate.Interchange.Expr
import TextTemplate.Proofs.Decimal.Reading
import TextTemplate.Proofs.Double.Data
import TextTemplate.Proofs.Json.Reading
import TextTemplate.Proofs.Outcome
import TextTemplate.Proofs.Token.Spelled

/-! # Spans, operators and numbers in the interchange format

The parts of a tree that hold no further expressions. Spans and operators are read back from their
interchange form whenever there is a level of nesting left for them. So are numbers, except that the
interchange format reads some doubles as a neighbour of theirs. -/

namespace TextTemplate

/-! ### Outcomes -/

/-- Whether reading has an outcome, and the outcome is alike to what was written. -/
def Reads {α : Type} (outcome : Option α) (alike : α → Bool) : Prop :=
  ∃ again, outcome = some again ∧ alike again = true

section Reads

variable {α β γ : Type} {first : Option α} {second : Option β}

@[simp] theorem reads_none (alike : α → Bool) : ¬Reads none alike := nofun

@[simp] theorem reads_some {value : α} {alike : α → Bool} :
    Reads (some value) alike ↔ alike value = true := by
  simp [Reads]

/-- Reading what has one part reads the part. -/
theorem reads_map {build : α → γ} {alike : γ → Bool} :
    Reads (first.map build) alike ↔ Reads first fun part => alike (build part) := by
  simp [Reads]

/-- Reading what has two parts reads both of them. -/
theorem reads_bind {build : α → β → γ} {alike : γ → Bool} (alikeFirst : α → Bool)
    (alikeSecond : β → Bool)
    (same : ∀ part other, alike (build part other) = (alikeFirst part && alikeSecond other)) :
    Reads (first.bind fun part => second.map fun other => build part other) alike ↔
      Reads first alikeFirst ∧ Reads second alikeSecond := by
  cases first <;> cases second <;> simp [same]

/-- What costs levels can be read if they are left, and then with so many fewer. -/
theorem reads_levels {levels cost depth : Nat} {alike : α → Bool} {condition : Prop}
    (inside : cost ≤ levels → (Reads first alike ↔ depth ≤ levels - cost ∧ condition)) :
    Reads (if levels < cost then none else first) alike ↔ depth + cost ≤ levels ∧ condition := by
  by_cases enough : levels < cost
  · simp only [if_pos enough, reads_none, false_iff, not_and]
    omega
  · rw [if_neg enough, inside (by omega)]
    exact and_congr_left fun _ => by omega

end Reads

/-! ### Spans -/

namespace Json

/-- A number's text consists of its digits. -/
theorem toList_toString (number : Nat) : (toString number).toList = Digits.ofNat number := by
  simp [Digits.ofNat, Nat.repr]

/-- Natural numbers have texts. -/
theorem writable_ofNat (number : Nat) : (Json.ofNat number).Writable := by
  rw [ofNat, Writable, toList_toString]
  exact (isUnsigned_ofNat number).isNumber

/-- A number below a bound is read back. -/
theorem natBelow?_ofNat {number bound : Nat} (below : number < bound) :
    (Json.ofNat number).natBelow? bound = some number := by
  have all : (Digits.ofNat number).all Char.isDigit = true :=
    List.all_eq_true.mpr (Digits.areDigits_ofNat number)
  rw [ofNat, natBelow?, toList_toString, Digits.value_ofNat, if_pos ⟨all, below⟩]

end Json

namespace Span

@[simp] theorem depth_toJson (span : Span) : span.toJson.depth = 1 := rfl

/-- Spans have texts. -/
theorem writable_toJson (span : Span) : span.toJson.Writable :=
  ⟨Json.writable_ofNat _, Json.writable_ofNat _, Json.writable_ofNat _, Json.writable_ofNat _,
    trivial⟩

/-- A span is read back if there is a level left. -/
theorem ofJson?_toJson (levels : Nat) (span : Span) :
    ofJson? levels span.toJson = if levels = 0 then none else some span := by
  have below (place : UInt32) : place.toNat < placeBound := place.toNat_lt
  unfold ofJson?
  split
  next => rfl
  next =>
    have fields : span.toJson.record? fieldNames fieldNames.length =
        some [some (.ofNat span.start.line.toNat), some (.ofNat span.start.column.toNat),
          some (.ofNat span.stop.line.toNat), some (.ofNat span.stop.column.toNat)] := by
      rfl
    simp only [fields, ofFields?, Json.natBelow?_ofNat (below _), bind, Option.bind, pure,
      UInt32.ofNat_toNat]

end Span

/-! ### Operators -/

/-- Operators are read back from their names. -/
@[simp] theorem BinaryOperator.ofDataName?_dataName (operator : BinaryOperator) :
    ofDataName? operator.dataName = some operator := by
  cases operator <;> decide

@[simp] theorem UnaryOperator.ofDataName?_dataName (operator : UnaryOperator) :
    ofDataName? operator.dataName = some operator := by
  cases operator <;> decide

/-! ### Numbers -/

namespace Numeric

/-- Whether the interchange format reads a number back as it is. Integers and decimals always are;
a double is if the arithmetic that reads its digits does not stray from it. -/
def IsReread : Numeric → Prop
  | .double (.finite negative place) =>
      ∃ again, Double.readData? (Double.dataText negative place.val) = some again ∧
        again.compare? (.finite negative place) = some .eq
  | .double _ => False
  | .integer _ | .decimal _ => True

@[simp] theorem depth_toJson (value : Numeric) : value.toJson.depth = 1 := by
  rcases value with (_ | _ | _) | _ | _ <;> rfl

/-- Numbers have texts. -/
theorem writable_toJson (value : Numeric) : value.toJson.Writable := by
  rcases value with (_ | _ | ⟨negative, place⟩) | _ | _
  all_goals try exact ⟨trivial, trivial⟩
  refine ⟨?_, trivial⟩
  rw [doubleToJson, Json.Writable, String.toList_ofList]
  exact Double.isNumber_dataText negative place.val

/-- A literal is read back if there is a level left and the format reads its double. -/
theorem reads_toJson_iff {value : Numeric} (literal : value.IsLiteral) (levels : Nat) :
    Reads (ofJson levels value.toJson).toOption (·.sameNumber value) ↔
      0 < levels ∧ value.IsReread := by
  unfold Reads
  by_cases empty : levels = 0
  · simp [ofJson, empty, toOption_eq_some_iff]
  rw [ofJson, if_neg empty]
  have positive : 0 < levels := Nat.pos_of_ne_zero empty
  -- Of all numbers only doubles are not exact in the format.
  cases value with
  | double x =>
      cases x with
      | nan => cases literal
      | infinity => cases literal
      | finite negative place =>
          simp only [toJson, Json.variant?, doubleToJson, doubleOfJson?, String.toList_ofList,
            IsReread, positive, true_and]
          cases Double.readData? (Double.dataText negative place.val) <;>
            simp [toOption_eq_some_iff, sameNumber]
  | integer i =>
      simp [toJson, Json.variant?, IsReread, positive, toOption_eq_some_iff, sameNumber]
  | decimal d =>
      have bounded : d.scale.natAbs ≤ 10000 := of_decide_eq_true literal
      obtain ⟨again, read, within, same, -⟩ := Decimal.read?_dataText bounded
      have within' : scaleWithinBounds again = true := decide_eq_true within
      simp [toJson, Json.variant?, IsReread, positive, toOption_eq_some_iff, sameNumber, read,
        within', same]

end Numeric

end TextTemplate
