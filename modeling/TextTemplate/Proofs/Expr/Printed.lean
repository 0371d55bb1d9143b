import TextTemplate.Proofs.Expr.Alike
import TextTemplate.Proofs.Expr.Words
import TextTemplate.Proofs.Numeric.Steady

/-! # The tokens of a printed expression

The parentheses that are printed are the ones that the grammar asks for: the tokens of a printed
expression derive an expression that is built alike. -/

namespace TextTemplate

/-- What the spelling of a number is read as. -/
def Numeric.reread (value : Numeric) : Numeric := (Numeric.parse? value.spelling).getD value

/-- Reading the spelling of a literal gives the number back. -/
theorem Numeric.respelled_reread {value : Numeric} (literal : value.IsLiteral) :
    value.Respelled value.reread := by
  obtain ⟨again, respelled, -⟩ := Numeric.exists_respelled literal
  rw [Numeric.reread, respelled.parsed]
  exact respelled

namespace Expr

/-! ### Tokens -/

/-- Tokens, in parentheses if `grouped`. -/
def parenthesizedKinds (grouped : Bool) (kinds : List TokenKind) : List TokenKind :=
  if grouped then .opening .round :: kinds ++ [.closing .round] else kinds

mutual

/-- The tokens that an expression is printed as. -/
def printedKinds : Expr → List TokenKind
  | .number value _ => [.number value.reread]
  | .text value _ => [.text value]
  | .boolean value _ => [.boolean value]
  | .array items _ => .opening .square :: printedKindsOfList items ++ [.closing .square]
  | .variable path _ => [.identifier path]
  | .binary operator left right _ =>
      parenthesizedKinds (needsParentheses operator left .right) (printedKinds left) ++
        .operator operator ::
          parenthesizedKinds (needsParentheses operator right .left) (printedKinds right)
  | .unary operator operand _ =>
      .unary operator :: parenthesizedKinds operand.isBinary (printedKinds operand)
  | .call name arguments _ =>
      .method name :: .opening .round :: printedKindsOfList arguments ++ [.closing .round]
  | .member object key _ =>
      parenthesizedKinds (!object.isIndexable) (printedKinds object) ++
        .opening .square :: printedKinds key ++ [.closing .square]

/-- The tokens that expressions are printed as, with commas between them. -/
def printedKindsOfList : List Expr → List TokenKind
  | [] => []
  | [expr] => printedKinds expr
  | expr :: rest => printedKinds expr ++ .comma :: printedKindsOfList rest

end

/-- There is a comma between two items of a list. -/
theorem printedKindsOfList_cons_cons (first second : Expr) (rest : List Expr) :
    printedKindsOfList (first :: second :: rest) =
      first.printedKinds ++ .comma :: printedKindsOfList (second :: rest) :=
  rfl

end Expr

/-! ### Derivations -/

namespace Grammar

open TextTemplate.Expr Numeric

variable {tokens : List Token}

/-- Tokens whose kinds start with one start with a token of that kind. -/
theorem kinds_eq_cons {kind : TokenKind} {rest : List TokenKind}
    (same : kinds tokens = kind :: rest) :
    ∃ span others, tokens = ⟨kind, span⟩ :: others ∧ kinds others = rest := by
  obtain ⟨⟨_, span⟩, others, rfl, rfl, rest⟩ := List.map_eq_cons_iff.mp same
  exact ⟨span, others, rfl, rest⟩

/-- Tokens whose kinds are divided are divided in the same way. -/
theorem kinds_eq_append {left right : List TokenKind} (same : kinds tokens = left ++ right) :
    ∃ first second, tokens = first ++ second ∧ kinds first = left ∧ kinds second = right :=
  List.map_eq_append_iff.mp same

/-- Tokens of one kind are one token. -/
theorem kinds_eq_singleton {kind : TokenKind} (same : kinds tokens = [kind]) :
    ∃ span, tokens = [⟨kind, span⟩] := by
  obtain ⟨span, others, rfl, none⟩ := kinds_eq_cons same
  exact ⟨span, by rw [List.map_eq_nil_iff.mp none]⟩

/-- Tokens whose kinds are enclosed are enclosed in the same way. -/
theorem kinds_eq_between {opening closing : TokenKind} {inside : List TokenKind}
    (same : kinds tokens = opening :: inside ++ [closing]) :
    ∃ start others stop, tokens = ⟨opening, start⟩ :: others ++ [⟨closing, stop⟩] ∧
      kinds others = inside := by
  obtain ⟨first, last, rfl, between, isLast⟩ := kinds_eq_append same
  obtain ⟨start, others, rfl, within⟩ := kinds_eq_cons between
  obtain ⟨stop, rfl⟩ := kinds_eq_singleton isLast
  exact ⟨start, others, stop, rfl, within⟩

/-- The production that the text of an expression is derived by. -/
def DerivedAs : Expr → List Token → Expr → Prop
  | .binary operator _ _ _, tokens, again => Chain operator.precedence tokens again
  | .unary _ _ _, tokens, again => Prefixed tokens again
  | _, tokens, again => Postfixed tokens again

variable {expr again : Expr}

/-- Whatever the production, the text is a chain of any level that its binary operator, if it has
one, is up to. -/
theorem DerivedAs.chain_of_le {level : Nat} (derived : DerivedAs expr tokens again)
    (binds : ∀ operator left right span, expr = .binary operator left right span →
      level ≤ operator.precedence) : Chain level tokens again := by
  cases expr with
  | binary operator left right span => exact Chain.weaken derived (binds _ _ _ _ rfl)
  | unary operator operand span => exact .operand derived
  | _ => exact .operand (.postfixed derived)

/-- The text may stand where any expression may. -/
theorem DerivedAs.chain (derived : DerivedAs expr tokens again) : Chain 0 tokens again :=
  derived.chain_of_le fun _ _ _ _ _ => Nat.zero_le _

/-- Unless it is a binary operator's, the text may stand where an operand may. -/
theorem DerivedAs.prefixed (derived : DerivedAs expr tokens again)
    (notBinary : expr.isBinary = false) : Prefixed tokens again := by
  cases expr with
  | binary operator left right span => cases notBinary
  | unary operator operand span => exact derived
  | _ => exact .postfixed derived

/-- If a bracket behind it is its index, the text may stand in front of one. -/
theorem DerivedAs.postfixed (derived : DerivedAs expr tokens again)
    (indexable : expr.isIndexable = true) : Postfixed tokens again := by
  cases expr with
  | binary operator left right span => cases indexable
  | unary operator operand span => cases indexable
  | _ => exact derived

/-- Without parentheses, a left operand binds as strongly as its operator asks for. -/
theorem DerivedAs.left {operator : BinaryOperator} (derived : DerivedAs expr tokens again)
    (bare : needsParentheses operator expr .right = false) :
    Chain operator.leftLevel tokens again := by
  refine derived.chain_of_le fun inner left right span isBinary => ?_
  rw [isBinary] at bare
  cases associates : operator.associativity <;>
    simp [needsParentheses, BinaryOperator.leftLevel, associates] at bare ⊢ <;> omega

/-- Without parentheses, a right operand binds as strongly as its operator asks for. -/
theorem DerivedAs.right {operator : BinaryOperator} (derived : DerivedAs expr tokens again)
    (bare : needsParentheses operator expr .left = false) :
    Chain operator.rightLevel tokens again := by
  refine derived.chain_of_le fun inner left right span isBinary => ?_
  rw [isBinary] at bare
  cases associates : operator.associativity <;>
    simp [needsParentheses, BinaryOperator.rightLevel, associates] at bare ⊢ <;> omega

/-- Parentheses make an operand of any expression. -/
theorem derived_of_parenthesized {grouped : Bool}
    (inside : ∀ others, kinds others = expr.printedKinds →
      ∃ again, Expr.Alike Respelled expr again ∧ DerivedAs expr others again)
    (same : kinds tokens = parenthesizedKinds grouped expr.printedKinds) :
    ∃ again, Expr.Alike Respelled expr again ∧
      (Postfixed tokens again ∨ grouped = false ∧ DerivedAs expr tokens again) := by
  cases grouped with
  | true =>
      obtain ⟨start, others, stop, rfl, within⟩ := kinds_eq_between same
      obtain ⟨again, alike, derived⟩ := inside others within
      exact ⟨again, alike, .inl (.primary (.group derived.chain))⟩
  | false =>
      obtain ⟨again, alike, derived⟩ := inside tokens same
      exact ⟨again, alike, .inr ⟨rfl, derived⟩⟩

/-- Items that are not none are separated. -/
theorem Items.separated {items : List Expr} (derived : Items tokens items) (some : items ≠ []) :
    Separated tokens items := by
  cases derived with
  | none => exact absurd rfl some
  | some separated => exact separated

mutual

/-- The tokens of a printed expression derive an expression that is built alike. -/
theorem derived_of_printedKinds : (expr : Expr) → (∀ word ∈ expr.words, word.IsSpelled) →
    ∀ tokens, kinds tokens = expr.printedKinds →
    ∃ again, Expr.Alike Respelled expr again ∧ DerivedAs expr tokens again
  | .number value _, spelled, _, same => by
      obtain ⟨span, rfl⟩ := kinds_eq_singleton same
      have literal : value.IsLiteral := spelled (.number value) (List.mem_singleton_self _)
      exact ⟨_, .number (respelled_reread literal), .primary (.number _ span)⟩
  | .text value _, _, _, same => by
      obtain ⟨span, rfl⟩ := kinds_eq_singleton same
      exact ⟨_, .text, .primary (.text value span)⟩
  | .boolean value _, _, _, same => by
      obtain ⟨span, rfl⟩ := kinds_eq_singleton same
      exact ⟨_, .boolean, .primary (.boolean value span)⟩
  | .variable path _, _, _, same => by
      obtain ⟨span, rfl⟩ := kinds_eq_singleton same
      exact ⟨_, .variable, .primary (.variable path span)⟩
  | .array items _, spelled, _, same => by
      obtain ⟨start, others, stop, rfl, within⟩ := kinds_eq_between same
      obtain ⟨again, alike, derived⟩ := items_of_printedKinds items spelled others within
      exact ⟨_, .array alike, .primary (.array derived)⟩
  -- An operand that is printed bare binds strongly enough, and one in parentheses always does.
  | .binary operator left right _, spelled, _, same => by
      obtain ⟨spelledLeft, spelledRight⟩ := List.forall_mem_append.mp spelled
      obtain ⟨lefts, rest, rfl, sameLeft, rest'⟩ := kinds_eq_append same
      obtain ⟨span, rights, rfl, sameRight⟩ := kinds_eq_cons rest'
      obtain ⟨left', alike, derived⟩ :=
        derived_of_parenthesized (derived_of_printedKinds left spelledLeft) sameLeft
      obtain ⟨right', alike', derived'⟩ :=
        derived_of_parenthesized (derived_of_printedKinds right spelledRight) sameRight
      refine ⟨_, .binary alike alike', .binary (Nat.le_refl _) ?_ ?_⟩
      · exact derived.elim (fun grouped => .operand (.postfixed grouped))
          (fun bare => bare.2.left bare.1)
      · exact derived'.elim (fun grouped => .operand (.postfixed grouped))
          (fun bare => bare.2.right bare.1)
  | .unary operator operand _, spelled, _, same => by
      obtain ⟨span, others, rfl, within⟩ := kinds_eq_cons same
      obtain ⟨again, alike, derived⟩ :=
        derived_of_parenthesized (derived_of_printedKinds operand spelled) within
      refine ⟨_, .unary alike, .unary ?_⟩
      exact derived.elim .postfixed (fun bare => bare.2.prefixed bare.1)
  | .call name arguments _, spelled, _, same => by
      obtain ⟨span, others, rfl, within⟩ := kinds_eq_cons same
      obtain ⟨start, inside, stop, rfl, inner⟩ := kinds_eq_between within
      obtain ⟨again, alike, derived⟩ :=
        items_of_printedKinds arguments (List.forall_mem_cons.mp spelled).2 inside inner
      exact ⟨_, .call alike, .primary (.call derived)⟩
  | .member object key _, spelled, _, same => by
      obtain ⟨spelledObject, spelledKey⟩ := List.forall_mem_append.mp spelled
      rw [printedKinds, List.append_assoc] at same
      obtain ⟨objects, rest, rfl, sameObject, rest'⟩ := kinds_eq_append same
      obtain ⟨start, keys, stop, rfl, sameKey⟩ := kinds_eq_between rest'
      obtain ⟨object', alike, derived⟩ :=
        derived_of_parenthesized (derived_of_printedKinds object spelledObject) sameObject
      obtain ⟨key', alike', derived'⟩ := derived_of_printedKinds key spelledKey keys sameKey
      have postfixed : Postfixed objects object' :=
        derived.elim id (fun bare => bare.2.postfixed (by simpa using bare.1))
      -- The brackets are associated as the grammar has them: behind all that stands before them.
      have indexed : Postfixed
          (objects ++ ⟨.opening .square, start⟩ :: keys ++ [⟨.closing .square, stop⟩])
          (.member object' key' (object'.span.merge stop)) :=
        .index postfixed derived'.chain
      rw [List.append_assoc] at indexed
      exact ⟨_, .member alike alike', indexed⟩

/-- The tokens of printed expressions derive expressions that are built alike. -/
theorem items_of_printedKinds : (items : List Expr) →
    (∀ word ∈ wordsOfList items, word.IsSpelled) →
    ∀ tokens, kinds tokens = printedKindsOfList items →
    ∃ again, Expr.AllAlike Respelled items again ∧ Items tokens again
  | [], _, _, same => by
      rw [List.map_eq_nil_iff.mp same]
      exact ⟨[], .nil, .none⟩
  | [expr], spelled, tokens, same => by
      rw [wordsOfList, wordsOfList, List.append_nil] at spelled
      obtain ⟨again, alike, derived⟩ := derived_of_printedKinds expr spelled tokens same
      exact ⟨[again], .cons alike .nil, .some (.last derived.chain)⟩
  | first :: second :: rest, spelled, _, same => by
      obtain ⟨spelledFirst, spelledRest⟩ := List.forall_mem_append.mp spelled
      rw [printedKindsOfList_cons_cons] at same
      obtain ⟨firsts, others, rfl, sameFirst, others'⟩ := kinds_eq_append same
      obtain ⟨span, others, rfl, sameRest⟩ := kinds_eq_cons others'
      obtain ⟨first', alike, derived⟩ :=
        derived_of_printedKinds first spelledFirst firsts sameFirst
      obtain ⟨rest', alike', derived'⟩ :=
        items_of_printedKinds (second :: rest) spelledRest others sameRest
      -- Something stands behind the comma.
      have some : rest' ≠ [] := by
        rintro rfl
        cases alike'
      exact ⟨_, .cons alike alike', .some (.cons derived.chain (derived'.separated some))⟩

end

end Grammar

end TextTemplate
