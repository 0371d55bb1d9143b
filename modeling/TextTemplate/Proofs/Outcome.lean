/-! # Outcomes of steps that may fail

When several steps succeed, one after the other, each of them does. -/

namespace TextTemplate

variable {ε α β γ : Type}

/-- Two steps succeed when the first does and the second does with its result. -/
theorem bind_eq_ok_iff {step : Except ε α} {next : α → Except ε β} {result : β} :
    (step >>= next) = .ok result ↔ ∃ value, step = .ok value ∧ next value = .ok result := by
  cases step <;> simp [bind, Except.bind]

/-- A step with its result changed succeeds when the step does. -/
theorem map_eq_ok_iff {step : Except ε α} {change : α → β} {result : β} :
    step.map change = .ok result ↔ ∃ value, step = .ok value ∧ change value = result := by
  cases step <;> simp [Except.map]

/-- A change of what two steps result in is one of what the second step does. -/
theorem map_of_bind {step : Except ε α} {next : α → Except ε β} {change : β → γ} :
    (step >>= next).map change = step >>= fun value => (next value).map change := by
  cases step <;> rfl

/-- A step on all entries of a list succeeds when it does on the first one and on the others. -/
theorem mapM_cons_ok_iff {step : α → Except ε β} {first : α} {rest : List α} {results : List β} :
    (first :: rest).mapM step = .ok results ↔ ∃ result others,
      step first = .ok result ∧ rest.mapM step = .ok others ∧ results = result :: others := by
  simp only [List.mapM_cons, bind_eq_ok_iff]
  simp [pure, Except.pure, eq_comm (a := results)]

/-- The value of an outcome, if there is one. -/
theorem toOption_eq_some_iff {outcome : Except ε α} {value : α} :
    outcome.toOption = some value ↔ outcome = .ok value := by
  cases outcome <;> simp [Except.toOption]

/-- Two choices by the same condition give the same value when both of their parts do. -/
theorem toOption_ite {condition : Prop} [Decidable condition]
    {first first' second second' : Except ε α}
    (here : condition → first.toOption = first'.toOption)
    (there : ¬condition → second.toOption = second'.toOption) :
    (if condition then first else second).toOption =
      (if condition then first' else second').toOption := by
  by_cases holds : condition
  · rw [if_pos holds, if_pos holds, here holds]
  · rw [if_neg holds, if_neg holds, there holds]

end TextTemplate
