import TextTemplate.Analysis
import TextTemplate.Expr.Printer
import TextTemplate.Proofs.Expr.Words
import TextTemplate.Proofs.Numeric.Spelling

/-! # Expressions that are built alike

Two expressions are alike when they differ in nothing but the places where they are written and the
representation of their numbers. They are equally deep, read the same names and call the same
methods; if their numbers are spelled in the same way, so are they. -/

namespace TextTemplate.Expr

mutual

/-- Whether two expressions are built alike, of numbers that correspond to each other. -/
inductive Alike (same : Numeric → Numeric → Prop) : Expr → Expr → Prop where
  | number {value value' : Numeric} {span span' : Span} :
      same value value' → Alike same (.number value span) (.number value' span')
  | text {value : String} {span span' : Span} : Alike same (.text value span) (.text value span')
  | boolean {value : Bool} {span span' : Span} :
      Alike same (.boolean value span) (.boolean value span')
  | array {items items' : List Expr} {span span' : Span} :
      AllAlike same items items' → Alike same (.array items span) (.array items' span')
  | variable {path : String} {span span' : Span} :
      Alike same (.variable path span) (.variable path span')
  | binary {operator : BinaryOperator} {left right left' right' : Expr} {span span' : Span} :
      Alike same left left' → Alike same right right' →
      Alike same (.binary operator left right span) (.binary operator left' right' span')
  | unary {operator : UnaryOperator} {operand operand' : Expr} {span span' : Span} :
      Alike same operand operand' →
      Alike same (.unary operator operand span) (.unary operator operand' span')
  | call {name : String} {arguments arguments' : List Expr} {span span' : Span} :
      AllAlike same arguments arguments' →
      Alike same (.call name arguments span) (.call name arguments' span')
  | member {object key object' key' : Expr} {span span' : Span} :
      Alike same object object' → Alike same key key' →
      Alike same (.member object key span) (.member object' key' span')

/-- Whether the expressions of two lists are alike, one by one. -/
inductive AllAlike (same : Numeric → Numeric → Prop) : List Expr → List Expr → Prop where
  | nil : AllAlike same [] []
  | cons {expr expr' : Expr} {rest rest' : List Expr} :
      Alike same expr expr' → AllAlike same rest rest' →
      AllAlike same (expr :: rest) (expr' :: rest')

end

variable {same : Numeric → Numeric → Prop}

mutual

/-- An expression is alike to itself. -/
theorem Alike.refl (reflexive : ∀ value, same value value) : (expr : Expr) → Alike same expr expr
  | .number value _ => .number (reflexive value)
  | .text _ _ => .text
  | .boolean _ _ => .boolean
  | .array items _ => .array (AllAlike.refl reflexive items)
  | .variable _ _ => .variable
  | .binary _ left right _ => .binary (Alike.refl reflexive left) (Alike.refl reflexive right)
  | .unary _ operand _ => .unary (Alike.refl reflexive operand)
  | .call _ arguments _ => .call (AllAlike.refl reflexive arguments)
  | .member object key _ => .member (Alike.refl reflexive object) (Alike.refl reflexive key)

/-- Expressions of a list are alike to themselves. -/
theorem AllAlike.refl (reflexive : ∀ value, same value value) :
    (exprs : List Expr) → AllAlike same exprs exprs
  | [] => .nil
  | expr :: rest => .cons (Alike.refl reflexive expr) (AllAlike.refl reflexive rest)

end

/-! ### Other comparisons of numbers -/

mutual

/-- Expressions stay alike when the numbers that they have are compared less strictly. -/
theorem Alike.mono {looser : Numeric → Numeric → Prop} :
    {expr expr' : Expr} → Alike same expr expr' →
    (∀ value, .number value ∈ expr.words → ∀ value', same value value' → looser value value') →
    Alike looser expr expr'
  | _, _, .number values, weaken => .number (weaken _ (List.mem_singleton_self _) _ values)
  | _, _, .text, _ => .text
  | _, _, .boolean, _ => .boolean
  | _, _, .array items, weaken => .array (items.mono weaken)
  | _, _, .variable, _ => .variable
  | _, _, .binary left right, weaken =>
      .binary (left.mono fun value isWord => weaken value (List.mem_append_left _ isWord))
        (right.mono fun value isWord => weaken value (List.mem_append_right _ isWord))
  | _, _, .unary operand, weaken => .unary (operand.mono weaken)
  | _, _, .call arguments, weaken =>
      .call (arguments.mono fun value isWord => weaken value (List.mem_cons_of_mem _ isWord))
  | _, _, .member object key, weaken =>
      .member (object.mono fun value isWord => weaken value (List.mem_append_left _ isWord))
        (key.mono fun value isWord => weaken value (List.mem_append_right _ isWord))

/-- What holds of the numbers in a list may be weakened for all of them. -/
theorem AllAlike.mono {looser : Numeric → Numeric → Prop} :
    {exprs exprs' : List Expr} → AllAlike same exprs exprs' →
    (∀ value, .number value ∈ wordsOfList exprs →
      ∀ value', same value value' → looser value value') →
    AllAlike looser exprs exprs'
  | _, _, .nil, _ => .nil
  | _, _, .cons first rest, weaken =>
      .cons (first.mono fun value isWord => weaken value (List.mem_append_left _ isWord))
        (rest.mono fun value isWord => weaken value (List.mem_append_right _ isWord))

end

mutual

/-- What two comparisons say of the numbers of an expression, they say of the same pairs. -/
theorem Alike.exists_pair {other : Numeric → Numeric → Prop} {value : Numeric} :
    {expr expr' : Expr} → Alike same expr expr' → Alike other expr expr' →
    .number value ∈ expr.words → ∃ value', same value value' ∧ other value value'
  | _, _, .number values, .number values', isWord => by
      cases List.mem_singleton.mp isWord
      exact ⟨_, values, values'⟩
  | _, _, .text, .text, isWord | _, _, .boolean, .boolean, isWord => nomatch isWord
  | _, _, .array items, .array items', isWord => items.exists_pair items' isWord
  | _, _, .variable, .variable, isWord => nomatch List.mem_singleton.mp isWord
  | _, _, .binary left right, .binary left' right', isWord =>
      (List.mem_append.mp isWord).elim (left.exists_pair left') (right.exists_pair right')
  | _, _, .unary operand, .unary operand', isWord => operand.exists_pair operand' isWord
  | _, _, .call arguments, .call arguments', isWord =>
      arguments.exists_pair arguments' ((List.mem_cons.mp isWord).resolve_left nofun)
  | _, _, .member object key, .member object' key', isWord =>
      (List.mem_append.mp isWord).elim (object.exists_pair object') (key.exists_pair key')

/-- A number of a list has a counterpart in every list that is alike. -/
theorem AllAlike.exists_pair {other : Numeric → Numeric → Prop} {value : Numeric} :
    {exprs exprs' : List Expr} → AllAlike same exprs exprs' → AllAlike other exprs exprs' →
    .number value ∈ wordsOfList exprs → ∃ value', same value value' ∧ other value value'
  | _, _, .nil, .nil, isWord => nomatch isWord
  | _, _, .cons first rest, .cons first' rest', isWord =>
      (List.mem_append.mp isWord).elim (first.exists_pair first') (rest.exists_pair rest')

end

/-! ### Depth -/

mutual

/-- Expressions that are alike are equally deep. -/
theorem Alike.depth_eq : {expr expr' : Expr} → Alike same expr expr' → expr'.depth = expr.depth
  | _, _, .number _ | _, _, .text | _, _, .boolean | _, _, .variable => rfl
  | _, _, .array items => by rw [depth, depth, items.depth_eq]
  | _, _, .binary left right => by rw [depth, depth, left.depth_eq, right.depth_eq]
  | _, _, .unary operand => by rw [depth, depth, operand.depth_eq]
  | _, _, .call arguments => by rw [depth, depth, arguments.depth_eq]
  | _, _, .member object key => by rw [depth, depth, object.depth_eq, key.depth_eq]

/-- Lists that are alike are equally deep. -/
theorem AllAlike.depth_eq : {exprs exprs' : List Expr} → AllAlike same exprs exprs' →
    depthOfList exprs' = depthOfList exprs
  | _, _, .nil => rfl
  | _, _, .cons first rest => by rw [depthOfList, depthOfList, first.depth_eq, rest.depth_eq]

end

mutual

/-- What is alike to an expression within a limit is within the limit, too. -/
theorem Alike.within {limit : Nat} : {expr expr' : Expr} → Alike same expr expr' →
    expr.Within limit → expr'.Within limit
  | _, _, .number _, _ | _, _, .text, _ | _, _, .boolean, _ | _, _, .variable, _ =>
      within_of_not_isComposite rfl
  | _, _, .array items, within => by
      rw [within_array] at within ⊢
      exact ⟨items.within within.1, by rw [items.depth_eq]; exact within.2⟩
  | _, _, .binary left right, within => by
      rw [within_binary] at within ⊢
      refine ⟨⟨left.within within.1.1, right.within within.1.2⟩, ?_⟩
      rw [left.depth_eq, right.depth_eq]
      exact within.2
  | _, _, .unary operand, within => by
      rw [within_unary] at within ⊢
      exact ⟨operand.within within.1, by rw [operand.depth_eq]; exact within.2⟩
  | _, _, .call arguments, within => by
      rw [within_call] at within ⊢
      exact ⟨arguments.within within.1, by rw [arguments.depth_eq]; exact within.2⟩
  | _, _, .member object key, within => by
      rw [within_member] at within ⊢
      refine ⟨⟨object.within within.1.1, key.within within.1.2⟩, ?_⟩
      rw [object.depth_eq, key.depth_eq]
      exact within.2

/-- The depth limit does not tell lists apart that are alike. -/
theorem AllAlike.within {limit : Nat} : {exprs exprs' : List Expr} → AllAlike same exprs exprs' →
    AllWithin limit exprs → AllWithin limit exprs'
  | _, _, .nil, within => within
  | _, _, .cons first rest, within => by
      rw [allWithin_cons] at within ⊢
      exact ⟨first.within within.1, rest.within within.2⟩

end

/-! ### Names -/

mutual

/-- Expressions that are alike read the same names. -/
theorem Alike.roots_eq : {expr expr' : Expr} → Alike same expr expr' → expr'.roots = expr.roots
  | _, _, .number _ | _, _, .text | _, _, .boolean | _, _, .variable => rfl
  | _, _, .array items => by rw [roots, roots, items.roots_eq]
  | _, _, .binary left right => by rw [roots, roots, left.roots_eq, right.roots_eq]
  | _, _, .unary operand => by rw [roots, roots, operand.roots_eq]
  | _, _, .call arguments => by rw [roots, roots, arguments.roots_eq]
  | _, _, .member object key => by rw [roots, roots, object.roots_eq, key.roots_eq]

/-- Lists that are alike read the same names. -/
theorem AllAlike.roots_eq : {exprs exprs' : List Expr} → AllAlike same exprs exprs' →
    rootsOfList exprs' = rootsOfList exprs
  | _, _, .nil => rfl
  | _, _, .cons first rest => by rw [rootsOfList, rootsOfList, first.roots_eq, rest.roots_eq]

end

mutual

/-- Expressions that are alike call the same methods. -/
theorem Alike.calls_eq : {expr expr' : Expr} → Alike same expr expr' → expr'.calls = expr.calls
  | _, _, .number _ | _, _, .text | _, _, .boolean | _, _, .variable => rfl
  | _, _, .array items => by rw [calls, calls, items.calls_eq]
  | _, _, .binary left right => by rw [calls, calls, left.calls_eq, right.calls_eq]
  | _, _, .unary operand => by rw [calls, calls, operand.calls_eq]
  | _, _, .call arguments => by rw [calls, calls, arguments.calls_eq]
  | _, _, .member object key => by rw [calls, calls, object.calls_eq, key.calls_eq]

/-- Lists that are alike call the same methods. -/
theorem AllAlike.calls_eq : {exprs exprs' : List Expr} → AllAlike same exprs exprs' →
    callsOfList exprs' = callsOfList exprs
  | _, _, .nil => rfl
  | _, _, .cons first rest => by rw [callsOfList, callsOfList, first.calls_eq, rest.calls_eq]

end

/-! ### Spelling -/

/-- There is a comma between two items of a list. -/
theorem printList_cons_cons (first second : Expr) (rest : List Expr) :
    printList (first :: second :: rest) = first.print ++ ',' :: ' ' :: printList (second :: rest) :=
  rfl

/-- Parentheses do not depend on the values of numbers. -/
theorem Alike.needsParentheses_eq {operator : BinaryOperator} {regrouping : Associativity}
    {expr expr' : Expr} (alike : Alike same expr expr') :
    needsParentheses operator expr' regrouping = needsParentheses operator expr regrouping := by
  cases alike <;> rfl

/-- Neither does whether an expression is a binary operation. -/
theorem Alike.isBinary_eq {expr expr' : Expr} (alike : Alike same expr expr') :
    expr'.isBinary = expr.isBinary := by
  cases alike <;> rfl

/-- A number that is spelled in the same way may be indexed as well. -/
theorem Alike.isIndexable_eq {expr expr' : Expr} (alike : Alike Numeric.Respelled expr expr') :
    expr'.isIndexable = expr.isIndexable := by
  cases alike with
  | number values => rw [isIndexable, isIndexable, values.negative]
  | _ => rfl

/-- Where numbers are spelled in the same way, both texts start with one or none does. -/
theorem Alike.startsWithNumber_eq : {expr expr' : Expr} → Alike Numeric.Respelled expr expr' →
    expr'.startsWithNumber = expr.startsWithNumber
  | _, _, .number _ | _, _, .text | _, _, .boolean | _, _, .array _ | _, _, .variable
  | _, _, .binary _ _ | _, _, .unary _ | _, _, .call _ => rfl
  | _, _, .member object _ => by
      rw [startsWithNumber, startsWithNumber, object.isIndexable_eq, object.startsWithNumber_eq]

mutual

/-- Expressions that are alike have the same text when their numbers do. -/
theorem Alike.print_eq : {expr expr' : Expr} → Alike Numeric.Respelled expr expr' →
    expr'.print = expr.print
  | _, _, .number values => values.spelling
  | _, _, .text | _, _, .boolean | _, _, .variable => rfl
  | _, _, .array items => by rw [print, print, items.print_eq]
  | _, _, .binary left right => by
      rw [print, print, left.print_eq, right.print_eq, left.needsParentheses_eq,
        right.needsParentheses_eq]
  | _, _, .unary operand => by
      rw [print, print, operand.print_eq, operand.startsWithNumber_eq, operand.isBinary_eq]
  | _, _, .call arguments => by rw [print, print, arguments.print_eq]
  | _, _, .member object key => by
      rw [print, print, object.print_eq, key.print_eq, object.isIndexable_eq]

/-- Lists whose numbers are spelled in the same way have the same text. -/
theorem AllAlike.print_eq : {exprs exprs' : List Expr} → AllAlike Numeric.Respelled exprs exprs' →
    printList exprs' = printList exprs
  | _, _, .nil => rfl
  | _, _, .cons first .nil => first.print_eq
  | _, _, .cons first (.cons second rest) => by
      have others := (AllAlike.cons second rest).print_eq
      rw [printList_cons_cons, printList_cons_cons, first.print_eq, others]

end

end TextTemplate.Expr
