import TextTemplate.Proofs.Expr.Lexed

/-! # Printed expressions in tags

Outside of its strings the text of an expression has nothing that could close a tag, and its strings
are closed themselves. So a tag around the text ends where its own closer stands. -/

namespace TextTemplate

/-- Whether a text closes every string that it opens and no tag, whatever follows it. -/
def IsSealed (text : List Char) : Prop :=
  ∀ (kind : TagKind) rest, kind.unquotedCloser? none (text ++ rest) =
    (kind.unquotedCloser? none rest).map (· + text.length)

/-- An empty text is sealed. -/
theorem isSealed_nil : IsSealed [] := fun kind rest => by simp

/-- Sealed texts can be written one after the other. -/
theorem IsSealed.append {left right : List Char} (first : IsSealed left) (second : IsSealed right) :
    IsSealed (left ++ right) := by
  intro kind rest
  rw [List.append_assoc, first, second, Option.map_map, List.length_append, Nat.add_comm]
  simp only [Function.comp_def, Nat.add_assoc]

/-- A character that starts no string and no closer may stand in front. -/
theorem IsSealed.cons {c : Char} {text : List Char} (plain : c ≠ '"' ∧ c ≠ '\'')
    (noCloser : ∀ (kind : TagKind) rest, kind.closer.isPrefixOf (c :: (text ++ rest)) = false)
    (isSealed : IsSealed text) : IsSealed (c :: text) := by
  intro kind rest
  rw [List.cons_append, TagKind.unquotedCloser?, if_neg (not_or.mpr plain),
    if_neg (by rw [noCloser]; exact Bool.false_ne_true), isSealed, Option.map_map]
  rfl

/-- Whether a character means nothing where tags end. -/
def IsInert (c : Char) : Prop := c ∉ ['"', '\'', '\x7d', '%', '#']

/-- A text of inert characters is sealed. -/
theorem isSealed_of_inert {text : List Char} (inert : ∀ c ∈ text, IsInert c) : IsSealed text := by
  induction text with
  | nil => exact isSealed_nil
  | cons c rest ih =>
      obtain ⟨first, others⟩ := List.forall_mem_cons.mp inert
      simp only [IsInert, List.mem_cons, List.not_mem_nil, or_false, not_or] at first
      refine .cons ⟨first.1, first.2.1⟩ (fun kind rest => ?_) (ih others)
      cases kind <;>
        simp [TagKind.closer, TagKind.closingMarker, List.isPrefixOf, eq_comm (b := c), first]

/-- Digits and name characters mean nothing where tags end. -/
theorem isInert_of_isPathChar {c : Char} (isPath : Token.isPathChar c = true) : IsInert c := by
  intro isMember
  simp only [List.mem_cons, List.not_mem_nil, or_false] at isMember
  rcases isMember with rfl | rfl | rfl | rfl | rfl <;> cases isPath

/-- A path is sealed. -/
theorem isSealed_of_path {path : List Char} (isPath : Token.IsPath path) : IsSealed path := by
  cases path with
  | nil => exact isPath.elim
  | cons c rest =>
      refine isSealed_of_inert (List.forall_mem_cons.mpr ⟨?_, fun d isMember => ?_⟩)
      · exact isInert_of_isPathChar (Token.isPathChar_of_isNameStart isPath.1)
      · exact isInert_of_isPathChar (isPath.2 d isMember)

/-- Digits are sealed, with a sign and a fraction or without. -/
theorem isSealed_of_isPlain {text : List Char} (plain : Numeric.IsPlain text) : IsSealed text := by
  obtain ⟨negative, whole, fraction, rfl, areDigits, -, isFraction⟩ := plain
  have digits {run : List Char} (areDigits : Digits.AreDigits run) : IsSealed run := by
    refine isSealed_of_inert fun c isMember => ?_
    have isDigit := areDigits c isMember
    exact isInert_of_isPathChar (by simp [Token.isPathChar, isNameChar, Char.isAlphanum, isDigit])
  refine .append ?_ (.append (digits areDigits) ?_)
  · cases negative
    · exact isSealed_nil
    · exact isSealed_of_inert (by simp [Numeric.signText, IsInert])
  · rcases isFraction with rfl | ⟨run, rfl, areDigits', -⟩
    · exact isSealed_nil
    · exact .append (isSealed_of_inert (by simp [IsInert]) : IsSealed ['.']) (digits areDigits')

namespace Expr

/-- A string closes itself. -/
theorem isSealed_quoted (value : String) : IsSealed (quoted value) := by
  intro kind rest
  have inside := (escaped_flatMap value.toList).unquotedCloser? kind rest
  rw [quoted, List.cons_append, List.cons_append, List.append_assoc, List.singleton_append,
    TagKind.unquotedCloser?, if_pos (.inl rfl), inside, Option.map_map, List.length_cons,
    List.length_append]
  rfl

/-- The symbol of an operator closes no tag, because a blank follows it. -/
theorem isSealed_operator (operator : BinaryOperator) :
    IsSealed (' ' :: operator.symbol.toList ++ [' ']) := by
  cases operator with
  -- The sign of the remainder also starts the closer of a statement.
  | modulo =>
      refine .cons (by decide) (fun kind rest => by cases kind <;> rfl) (.cons (by decide)
        (fun kind rest => by cases kind <;> rfl) (isSealed_of_inert (by simp [IsInert])))
  | _ => exact isSealed_of_inert (by simp [IsInert, BinaryOperator.symbol])

/-- A prefix operator is sealed. -/
theorem isSealed_unary (operator : UnaryOperator) : IsSealed operator.symbol.toList := by
  cases operator <;> exact isSealed_of_inert (by simp [IsInert, UnaryOperator.symbol])

/-- Brackets around a sealed text leave it sealed. -/
theorem IsSealed.enclosed {text : List Char} (isSealed : IsSealed text) (bracket : Bracket) :
    IsSealed (bracket.opening :: text ++ [bracket.closing]) := by
  have opening : IsSealed [bracket.opening] :=
    isSealed_of_inert (by cases bracket <;> simp [IsInert, Bracket.opening])
  have closing : IsSealed [bracket.closing] :=
    isSealed_of_inert (by cases bracket <;> simp [IsInert, Bracket.closing])
  exact (opening.append isSealed).append closing

/-- So do parentheses, if there are any. -/
theorem IsSealed.parenthesized {text : List Char} (isSealed : IsSealed text) (grouped : Bool) :
    IsSealed (parenthesized grouped text) := by
  cases grouped
  · exact isSealed
  · exact IsSealed.enclosed isSealed .round

mutual

/-- The text of an expression is sealed. -/
theorem isSealed_print : (expr : Expr) → (∀ word ∈ expr.words, word.IsSpelled) →
    IsSealed expr.print
  | .number value span, spelled => by
      have literal : value.IsLiteral := spelled (.number value) (List.mem_singleton_self _)
      exact isSealed_of_isPlain (Numeric.respelled_reread literal).plain
  | .text value span, _ => isSealed_quoted value
  | .boolean value span, _ => by
      have words : IsSealed "true".toList ∧ IsSealed "false".toList :=
        ⟨isSealed_of_inert (by simp [IsInert]), isSealed_of_inert (by simp [IsInert])⟩
      cases value
      · exact words.2
      · exact words.1
  | .array items span, spelled => IsSealed.enclosed (isSealed_printList items spelled) .square
  | .variable path span, spelled =>
      isSealed_of_path (spelled (.identifier path) (List.mem_singleton_self _)).1
  | .binary operator left right span, spelled => by
      obtain ⟨spelledLeft, spelledRight⟩ := List.forall_mem_append.mp spelled
      have first := IsSealed.parenthesized (isSealed_print left spelledLeft)
        (needsParentheses operator left .right)
      have second := IsSealed.parenthesized (isSealed_print right spelledRight)
        (needsParentheses operator right .left)
      have whole := first.append ((isSealed_operator operator).append second)
      simpa [print] using whole
  | .unary operator operand span, spelled => by
      have inside := IsSealed.parenthesized (isSealed_print operand spelled) operand.isBinary
      rw [print]
      -- A blank may keep a minus sign apart from a number.
      refine ((isSealed_unary operator).append ?_).append inside
      split
      · exact isSealed_of_inert (by simp [IsInert])
      · exact isSealed_nil
  | .call name arguments span, spelled => by
      obtain ⟨spelledName, spelledRest⟩ := List.forall_mem_cons.mp spelled
      have inside := IsSealed.enclosed (isSealed_printList arguments spelledRest) .round
      rw [print, List.append_assoc]
      exact (isSealed_of_path spelledName).append inside
  | .member object key span, spelled => by
      obtain ⟨spelledObject, spelledKey⟩ := List.forall_mem_append.mp spelled
      have first := IsSealed.parenthesized (isSealed_print object spelledObject)
        (!object.isIndexable)
      have second := IsSealed.enclosed (isSealed_print key spelledKey) .square
      rw [print, List.append_assoc]
      exact first.append second

/-- The printed items of a list are sealed. -/
theorem isSealed_printList : (items : List Expr) →
    (∀ word ∈ wordsOfList items, word.IsSpelled) → IsSealed (printList items)
  | [], _ => isSealed_nil
  | [expr], spelled => by
      rw [wordsOfList, wordsOfList, List.append_nil] at spelled
      exact isSealed_print expr spelled
  | first :: second :: more, spelled => by
      obtain ⟨spelledFirst, spelledRest⟩ := List.forall_mem_append.mp spelled
      have comma : IsSealed [',', ' '] := isSealed_of_inert (by simp [IsInert])
      exact (isSealed_print first spelledFirst).append
        (comma.append (isSealed_printList (second :: more) spelledRest))

end

end Expr

end TextTemplate
