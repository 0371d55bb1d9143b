import Mathlib.Order.MinMax
import TextTemplate.Fault
import TextTemplate.Proofs.Source.Places

/-! # Spans that mark a source

A span marks a source where it leads from the edge of a character to the edge of the same or a later
one. A step of reading locates its faults when it has them at such spans only; what it gives where
it succeeds is good for the steps behind it, so that several steps locate their faults together. -/

namespace TextTemplate

variable {source : Source}

namespace Source

/-! ### Marked spans -/

/-- Whether a span leads from the edge of a character of a source to one that is not in front. -/
def Marks (source : Source) (span : Span) : Prop :=
  ∃ start stop, start ≤ stop ∧ IsEdge source.text start ∧ IsEdge source.text stop ∧
    span = ⟨source.position start, source.position stop⟩

section Marks

variable {span other : Span} {part : List Char} {start stop first second : Nat}

/-- A part of a source is marked. -/
theorem marks_of_cut? (here : cut? source.text start stop = some part) :
    source.Marks (source.span start stop) := by
  obtain ⟨isStart, isStop⟩ := isEdge_of_cut? here
  have ordered : start ≤ stop := by
    rw [stop_of_cut? here]
    exact Nat.le_add_right _ _
  exact ⟨start, stop, ordered, isStart, isStop, span_of_le ordered⟩

/-- A marked span of a short source does not end before it starts. -/
theorem Marks.ordered (short : source.size < 2 ^ 32 - 1) (marks : source.Marks span) :
    span.start ≤ span.stop := by
  obtain ⟨start, stop, le, isStart, isStop, rfl⟩ := marks
  exact (position_strictMonoOn short).monotoneOn isStart isStop le

/-- Of two edges, the smaller one has the earlier position, and the larger one the later. -/
theorem position_min_max (short : source.size < 2 ^ 32 - 1) (isFirst : IsEdge source.text first)
    (isSecond : IsEdge source.text second) :
    (source.position first).earlier (source.position second) =
        source.position (min first second) ∧
      (source.position first).later (source.position second) =
        source.position (max first second) := by
  have increasing := position_strictMonoOn short
  rcases Nat.lt_or_ge second first with lt | le
  · have reversed : ¬source.position first ≤ source.position second :=
      not_le_of_gt (increasing isSecond isFirst lt)
    rw [Nat.min_eq_right (Nat.le_of_lt lt), Nat.max_eq_left (Nat.le_of_lt lt)]
    exact ⟨if_neg reversed, if_neg reversed⟩
  · have ordered := increasing.monotoneOn isFirst isSecond le
    rw [Nat.min_eq_left le, Nat.max_eq_right le]
    exact ⟨Position.earlier_of_le ordered, Position.later_of_le ordered⟩

/-- What covers two marked spans is marked. -/
theorem Marks.merge (short : source.size < 2 ^ 32 - 1) (marks : source.Marks span)
    (marks' : source.Marks other) : source.Marks (span.merge other) := by
  obtain ⟨start, stop, le, isStart, isStop, rfl⟩ := marks
  obtain ⟨start', stop', le', isStart', isStop', rfl⟩ := marks'
  refine ⟨min start start', max stop stop', by omega, ?_, ?_, ?_⟩
  · rcases min_choice start start' with same | same <;> rwa [same]
  · rcases max_choice stop stop' with same | same <;> rwa [same]
  · rw [Span.merge, (position_min_max short isStart isStart').1,
      (position_min_max short isStop isStop').2]

end Marks

end Source

/-- Whether something was found at a part of a source. -/
def Located.LiesIn {α : Type} (found : Located α) (source : Source) : Prop :=
  ∃ part, cut? source.text found.start found.stop = some part

/-- What was found at a part of a source has a marked span. -/
theorem Located.LiesIn.marks {α : Type} {found : Located α} (lies : found.LiesIn source) :
    source.Marks (found.span source) := by
  obtain ⟨part, here⟩ := lies
  exact Source.marks_of_cut? here

namespace Source

/-! ### Faults with offsets -/

/-- Whether the fault of a step, if it has one, is found at a part of a source. -/
def Finds {α : Type} (source : Source) (step : Except (Located Cause) α) : Prop :=
  ∀ fault, step = .error fault → fault.LiesIn source

section Finds

variable {α β : Type} {fault : Located Cause} {step other : Except (Located Cause) α}

/-- A step without a fault finds none. -/
theorem finds_ok (value : α) : source.Finds (.ok value) := nofun

/-- A fault is found where it lies. -/
theorem finds_error (lies : fault.LiesIn source) : source.Finds (.error fault : Except _ α) := by
  rintro _ ⟨⟩
  exact lies

/-- A choice between two steps finds the faults of either. -/
theorem finds_ite {condition : Prop} [Decidable condition] (first : source.Finds step)
    (second : source.Finds other) : source.Finds (if condition then step else other) := by
  by_cases holds : condition
  · rwa [if_pos holds]
  · rwa [if_neg holds]

/-- A change of what a step gives leaves its fault. -/
theorem Finds.map (finds : source.Finds step) (change : α → β) :
    source.Finds (step.map change) := by
  cases step with
  | ok value => exact finds_ok _
  | error fault => exact finds_error (finds fault rfl)

end Finds

/-! ### Located faults -/

/-- Whether the fault of a step is marked in a source, and what it gives without one is good. -/
def Locates {α : Type} (source : Source) (good : α → Prop) : Except Fault α → Prop
  | .ok value => good value
  | .error fault => source.Marks fault.span

section Locates

variable {α β : Type} {good better : α → Prop} {good' : β → Prop} {step : Except Fault α}

/-- Two steps locate their faults when the first does, and the second with what the first gives. -/
theorem Locates.bind {next : α → Except Fault β} (first : source.Locates good step)
    (second : ∀ value, good value → source.Locates good' (next value)) :
    source.Locates good' (step >>= next) := by
  cases step with
  | error fault => exact first
  | ok value => exact second value first

/-- What is good is good for less. -/
theorem Locates.imp (first : source.Locates good step)
    (weaker : ∀ value, good value → better value) : source.Locates better step := by
  cases step with
  | error fault => exact first
  | ok value => exact weaker value first

/-- A step on all entries of a list locates its faults when it does on each of them. -/
theorem locates_mapM {entries : List β} {step : β → Except Fault α}
    (each : ∀ entry ∈ entries, source.Locates good (step entry)) :
    source.Locates (fun values => ∀ value ∈ values, good value) (entries.mapM step) := by
  induction entries with
  | nil => exact List.forall_mem_nil _
  | cons entry rest ih =>
      obtain ⟨here, there⟩ := List.forall_mem_cons.mp each
      rw [List.mapM_cons]
      refine here.bind fun value isGood => (ih there).bind fun values areGood => ?_
      exact List.forall_mem_cons.mpr ⟨isGood, areGood⟩

end Locates

end Source

end TextTemplate
