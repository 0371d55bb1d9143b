import TextTemplate.Node.Parser
import TextTemplate.Proofs.Checked.Position

/-! # Reading with checks

Steps of reading that use offsets and tables find something or report a fault, and end at once where
an index or a cut is out of place. A step is shown to be in order by what it finds: it is the
outcome of the step that needs no offsets. -/

namespace TextTemplate.Checked

/-- A step of reading, which may report a fault. It is `none` if something is out of place, or if a
sum is caught. -/
abbrev Reading := ExceptT Diagnostic Option

variable {α β γ : Type} {source : Source}

/-- The end of reading where something is out of place. -/
def outOfPlace : Reading α := ExceptT.mk none

/-- Reports a fault, with the line that it is found in. -/
def fail (source : Source) (fault : Fault) : Reading α := do
  let line ← line source fault.span.start.line
  throw (.new source.name fault.cause.code fault.cause.message fault.span
    (String.ofList (line.getD [])) fault.cause.advice?)

/-- Reports what is wrong between two offsets. -/
def failAt (overflow : Overflow) (source : Source) (cause : Cause) (start stop : Nat) :
    Reading α := do
  let span ← span overflow source start stop
  fail source ⟨cause, span⟩

/-- The step that has an outcome and finds nothing out of place. -/
def found (source : Source) (outcome : Except Fault α) : Reading α :=
  ExceptT.mk (some (outcome.mapError (.ofFault source)))

/-- An access that is in place goes on with what it gives. -/
@[simp] theorem lift_some (value : α) : (liftM (some value) : Reading α) = pure value := rfl

@[simp] theorem found_ok (value : α) : found source (.ok value) = pure value := rfl

/-- Steps whose outcomes are known follow each other as the outcomes do. -/
theorem found_bind {outcome : Except Fault α} {next : α → Reading β}
    {following : α → Except Fault β}
    (same : ∀ value, outcome = .ok value → next value = found source (following value)) :
    (found source outcome >>= next) = found source (outcome >>= following) := by
  cases outcome with
  | error fault => rfl
  | ok value => rw [found_ok, pure_bind, same value rfl]; rfl

/-- Steps follow each other as well where the first one finds its outcome in another form. -/
theorem found_map_bind {outcome : Except Fault α} {change : α → β} {next : β → Reading γ}
    {following : α → Except Fault γ}
    (same : ∀ value, outcome = .ok value → next (change value) = found source (following value)) :
    (found source (outcome.map change) >>= next) = found source (outcome >>= following) := by
  cases outcome with
  | error fault => rfl
  | ok value => exact (pure_bind (change value) next).trans (same value rfl)

/-- A fault is reported as its diagnostic. -/
@[simp] theorem fail_eq (fault : Fault) :
    (fail source fault : Reading α) = found source (.error fault) := by
  rw [fail, line_eq]
  rfl

section Spans

variable {overflow : Overflow} [overflow.Fits source]

/-- What is wrong between two offsets is reported at their span. -/
@[simp] theorem failAt_eq (cause : Cause) (start stop : Nat) :
    (failAt overflow source cause start stop : Reading α) =
      found source (.error ⟨cause, source.span start stop⟩) := by
  rw [failAt, span_eq]
  simp

variable {tag : Tag} {cause : Cause} {next : Reading α} {following : Except Fault α}

/-- What must hold of a tag is checked before going on. -/
theorem found_require {condition : Bool} (same : next = found source following) :
    (if condition then next else failAt overflow source cause tag.start tag.stop) =
      found source (Node.Parser.require source condition tag cause >>= fun _ => following) := by
  cases condition with
  | true => exact same
  | false => exact failAt_eq _ _ _

/-- What must not hold of a tag is checked before going on. -/
theorem found_require_not {condition : Bool} (same : next = found source following) :
    (if condition then failAt overflow source cause tag.start tag.stop else next) =
      found source (Node.Parser.require source (!condition) tag cause >>= fun _ => following) := by
  cases condition with
  | true => exact failAt_eq _ _ _
  | false => exact same

end Spans

end TextTemplate.Checked
