import TextTemplate.Proofs.Expr.Printed
import TextTemplate.Proofs.Token.Lexed

/-! # The text of a printed expression

The text of an expression is cut into the tokens that the expression is printed as, whatever blanks
stand around it and whatever follows it. -/

namespace TextTemplate

open Token

/-! ### Visible characters -/

/-- Whether a character is one of the visible ones of the basic alphabet. -/
def IsVisible (c : Char) : Prop := 0x20 < c.toNat ∧ c.toNat < 0x7F

instance (c : Char) : Decidable (IsVisible c) :=
  inferInstanceAs (Decidable (0x20 < c.toNat ∧ c.toNat < 0x7F))

/-- Visible characters are not blank. -/
theorem IsVisible.isBlank {c : Char} (visible : IsVisible c) : isBlank c = false := by
  obtain ⟨low, high⟩ := visible
  simp only [TextTemplate.isBlank, Bool.or_eq_false_iff, Bool.and_eq_false_iff,
    decide_eq_false_iff_not, beq_eq_false_iff_ne]
  omega

/-- Digits are visible. -/
theorem isVisible_of_isDigit {c : Char} (isDigit : c.isDigit = true) : IsVisible c := by
  simp only [Char.isDigit, Bool.and_eq_true, decide_eq_true_eq, UInt32.le_iff_toNat_le]
    at isDigit
  exact ⟨Nat.lt_of_lt_of_le (by decide) isDigit.1, Nat.lt_of_le_of_lt isDigit.2 (by decide)⟩

/-- So are the characters of a path. -/
theorem isVisible_of_isPathChar {c : Char} (isPath : isPathChar c = true) : IsVisible c := by
  simp only [isPathChar, isNameChar, Char.isAlphanum, Bool.or_eq_true, beq_iff_eq] at isPath
  rcases isPath with (((isAlpha | digit) | rfl) | rfl)
  · rcases of_isAlpha isAlpha with upper | lower
    · exact ⟨Nat.lt_of_lt_of_le (by decide) upper.1, Nat.lt_of_le_of_lt upper.2 (by decide)⟩
    · exact ⟨Nat.lt_of_lt_of_le (by decide) lower.1, Nat.lt_of_le_of_lt lower.2 (by decide)⟩
  · exact isVisible_of_isDigit digit
  · decide
  · decide

namespace Expr

/-! ### First and last characters -/

/-- How the text of an expression may start: visibly, and not so that it makes another token of an
operator in front of it. A digit only starts the text of a number, of its keys, or of a binary
operator's left operand. -/
structure IsHead (expr : Expr) (c : Char) : Prop where
  visible : IsVisible c
  notEqual : c ≠ '='
  notPoint : c ≠ '.'
  digit : c.isDigit = true → expr.startsWithNumber = true ∨ expr.isBinary = true

/-- A letter may start any expression, since no operator ends with one. -/
theorem isHead_of_isNameStart (expr : Expr) {c : Char} (starts : isNameStart c = true) :
    IsHead expr c where
  visible := isVisible_of_isPathChar (isPathChar_of_isNameStart starts)
  notEqual := by
    rintro rfl
    cases starts
  notPoint := by
    rintro rfl
    cases starts
  digit := by
    intro isDigit
    have noNumber := (other_of_isNameStart starts).2.2.2.2 []
    simp [Token.startsWithNumber, startsWithDigit, isDigit] at noNumber

/-- Punctuation starts texts of all kinds. -/
theorem isHead_of_mem (expr : Expr) {c : Char} (isMember : c ∈ ['"', '(', '[', '!', '~', '-']) :
    IsHead expr c := by
  simp only [List.mem_cons, List.not_mem_nil, or_false] at isMember
  rcases isMember with rfl | rfl | rfl | rfl | rfl | rfl <;>
    exact ⟨by decide, by decide, by decide, nofun⟩

/-- A path starts with a letter, which may start any expression. -/
theorem exists_head_of_path (expr : Expr) {path : List Char} (isPath : IsPath path) :
    ∃ c rest, path = c :: rest ∧ IsHead expr c := by
  cases path with
  | nil => exact isPath.elim
  | cons c rest => exact ⟨c, rest, rfl, isHead_of_isNameStart expr isPath.1⟩

/-- How the text of an expression starts. -/
theorem exists_head : (expr : Expr) → (∀ word ∈ expr.words, word.IsSpelled) →
    ∃ c rest, expr.print = c :: rest ∧ IsHead expr c
  | .number value span, spelled => by
      have literal : value.IsLiteral := spelled (.number value) (List.mem_singleton_self _)
      obtain ⟨negative, whole, fraction, text, areDigits, nonempty, -⟩ :=
        (Numeric.respelled_reread literal).plain
      rw [print, text]
      cases negative with
      | true => exact ⟨'-', whole ++ fraction, rfl, isHead_of_mem _ (by decide)⟩
      | false =>
          obtain ⟨first, more, rfl⟩ := List.exists_cons_of_ne_nil nonempty
          have isDigit := areDigits first (List.mem_cons_self ..)
          refine ⟨first, more ++ fraction, rfl, isVisible_of_isDigit isDigit, ?_, ?_,
            fun _ => .inl rfl⟩
          -- A digit is neither an equals sign nor a point.
          all_goals
            rintro rfl
            cases isDigit
  | .text value span, _ => ⟨'"', _, rfl, isHead_of_mem _ (by decide)⟩
  | .boolean value span, _ => by
      cases value
      · exact ⟨'f', "alse".toList, rfl, isHead_of_isNameStart _ (by decide)⟩
      · exact ⟨'t', "rue".toList, rfl, isHead_of_isNameStart _ (by decide)⟩
  | .array items span, _ => ⟨'[', _, rfl, isHead_of_mem _ (by decide)⟩
  | .variable path span, spelled =>
      exists_head_of_path _ (spelled (.identifier path) (List.mem_singleton_self _)).1
  -- The first operand starts the whole text, unless it is in parentheses.
  | .binary operator left right span, spelled => by
      rw [print]
      cases needsParentheses operator left .right with
      | true => exact ⟨'(', _, rfl, isHead_of_mem _ (by decide)⟩
      | false =>
          obtain ⟨c, rest, text, isHead⟩ := exists_head left (List.forall_mem_append.mp spelled).1
          rw [parenthesized, if_neg Bool.false_ne_true, text]
          exact ⟨c, _, rfl, isHead.visible, isHead.notEqual, isHead.notPoint, fun _ => .inr rfl⟩
  | .unary operator operand span, _ => by
      rw [print]
      cases operator <;> exact ⟨_, _, rfl, isHead_of_mem _ (by decide)⟩
  | .call name arguments span, spelled => by
      obtain ⟨c, rest, text, isHead⟩ := exists_head_of_path (.call name arguments span)
        (spelled (.method name) (List.mem_cons_self ..))
      rw [print, text]
      exact ⟨c, _, rfl, isHead⟩
  | .member object key span, spelled => by
      rw [print]
      cases indexable : object.isIndexable with
      | false => exact ⟨'(', _, rfl, isHead_of_mem _ (by decide)⟩
      | true =>
          obtain ⟨c, rest, text, isHead⟩ := exists_head object (List.forall_mem_append.mp spelled).1
          rw [Bool.not_true, parenthesized, if_neg Bool.false_ne_true, text]
          refine ⟨c, _, rfl, isHead.visible, isHead.notEqual, isHead.notPoint, fun isDigit => ?_⟩
          rcases isHead.digit isDigit with isNumber | isBinary
          · exact .inl (by rw [startsWithNumber, indexable, isNumber]; rfl)
          · cases object <;> first | cases indexable; done | cases isBinary

/-- Whether a text ends with a visible character. -/
def EndsVisibly (text : List Char) : Prop := ∃ rest c, text = rest ++ [c] ∧ IsVisible c

/-- What stands in front of a text does not change how it ends. -/
theorem EndsVisibly.append {text : List Char} (ends : EndsVisibly text) (before : List Char) :
    EndsVisibly (before ++ text) := by
  obtain ⟨rest, c, rfl, visible⟩ := ends
  exact ⟨before ++ rest, c, by rw [List.append_assoc], visible⟩

/-- Parentheses around a text are visible. -/
theorem EndsVisibly.parenthesized {text : List Char} (ends : EndsVisibly text) (grouped : Bool) :
    EndsVisibly (parenthesized grouped text) := by
  cases grouped
  · exact ends
  · exact ⟨'(' :: text, ')', rfl, by decide⟩

/-- A text of visible characters ends with one. -/
theorem endsVisibly_of_forall {text : List Char} (nonempty : text ≠ [])
    (visible : ∀ c ∈ text, IsVisible c) : EndsVisibly text :=
  ⟨text.dropLast, text.getLast nonempty, (List.dropLast_append_getLast nonempty).symm,
    visible _ (List.getLast_mem nonempty)⟩

/-- A path ends with a visible character. -/
theorem endsVisibly_of_path {path : List Char} (isPath : IsPath path) : EndsVisibly path := by
  cases path with
  | nil => exact isPath.elim
  | cons c rest =>
      refine endsVisibly_of_forall (by simp) (List.forall_mem_cons.mpr ⟨?_, fun d isMember => ?_⟩)
      · exact isVisible_of_isPathChar (isPathChar_of_isNameStart isPath.1)
      · exact isVisible_of_isPathChar (isPath.2 d isMember)

/-- A text of digits, with a fraction or without one, ends with a digit. -/
theorem endsVisibly_of_isPlain {text : List Char} (plain : Numeric.IsPlain text) :
    EndsVisibly text := by
  have digits {run : List Char} (areDigits : Digits.AreDigits run) (nonempty : run ≠ []) :
      EndsVisibly run :=
    endsVisibly_of_forall nonempty fun c isMember => isVisible_of_isDigit (areDigits c isMember)
  obtain ⟨negative, whole, fraction, rfl, areDigits, nonempty, isFraction⟩ := plain
  refine EndsVisibly.append ?_ _
  rcases isFraction with rfl | ⟨run, rfl, areDigits', nonempty'⟩
  · rw [List.append_nil]
    exact digits areDigits nonempty
  · exact ((digits areDigits' nonempty').append ['.']).append whole

/-- The text of an expression ends visibly. -/
theorem endsVisibly : (expr : Expr) → (∀ word ∈ expr.words, word.IsSpelled) →
    EndsVisibly expr.print
  | .number value span, spelled => by
      have literal : value.IsLiteral := spelled (.number value) (List.mem_singleton_self _)
      exact endsVisibly_of_isPlain (Numeric.respelled_reread literal).plain
  | .text value span, _ => ⟨_, '"', rfl, by decide⟩
  | .boolean value span, _ => by
      cases value
      · exact ⟨"fals".toList, 'e', rfl, by decide⟩
      · exact ⟨"tru".toList, 'e', rfl, by decide⟩
  | .array items span, _ => ⟨_, ']', rfl, by decide⟩
  | .variable path span, spelled =>
      endsVisibly_of_path (spelled (.identifier path) (List.mem_singleton_self _)).1
  -- The last operand ends the whole text.
  | .binary operator left right span, spelled => by
      have last := (right.endsVisibly (List.forall_mem_append.mp spelled).2).parenthesized
        (needsParentheses operator right .left)
      have both := (last.append (' ' :: operator.symbol.toList ++ [' '])).append
        (parenthesized (needsParentheses operator left .right) left.print)
      simpa [print] using both
  | .unary operator operand span, spelled => by
      rw [print]
      exact ((operand.endsVisibly spelled).parenthesized _).append _
  | .call name arguments span, _ => by
      rw [print, List.append_assoc]
      exact EndsVisibly.append ⟨'(' :: printList arguments, ')', rfl, by decide⟩ _
  | .member object key span, _ => by
      rw [print, List.append_assoc]
      exact EndsVisibly.append ⟨'[' :: key.print, ']', rfl, by decide⟩ _

/-! ### Tokens -/

variable {rest text : List Char} {kinds others : List TokenKind}

/-- Whether a text is cut into tokens where an operand is expected, whatever follows it. -/
def IsOperand (text : List Char) (kinds : List TokenKind) : Prop :=
  ∀ rest others, EndsOperand rest → Lexed false rest others →
    Lexed true (text ++ rest) (kinds ++ others)

/-- Any operand is one in parentheses, too. -/
theorem IsOperand.parenthesized (operand : IsOperand text kinds) (grouped : Bool) :
    IsOperand (parenthesized grouped text) (parenthesizedKinds grouped kinds) := by
  cases grouped with
  | false => exact operand
  | true =>
      intro rest others _ lexed
      have closing : Lexed false (')' :: rest) (.closing .round :: others) :=
        .token (isCut_closing false .round rest) lexed
      have inside := operand _ _ (endsOperand_cons (by decide) rest) closing
      have whole : Lexed true ('(' :: (text ++ ')' :: rest))
          (.opening .round :: (kinds ++ .closing .round :: others)) :=
        .token (isCut_opening true .round _) inside
      simpa [Expr.parenthesized, parenthesizedKinds] using whole

/-- What stands behind a unary operator and the blank that may be needed there. -/
theorem isCut_unary_of_head (operator : UnaryOperator) (operand : Expr)
    (spelled : ∀ word ∈ operand.words, word.IsSpelled) (rest : List Char) :
    let blank := if operator = .negate ∧ operand.startsWithNumber then [' '] else []
    IsCut true operator.symbol.toList
      (blank ++ (Expr.parenthesized operand.isBinary operand.print ++ rest)) (.unary operator) := by
  intro blank
  by_cases isBlank : operator = .negate ∧ operand.startsWithNumber = true
  · simp only [blank, if_pos isBlank]
    exact isCut_unary operator (fun _ => by simp) (fun _ => by rfl)
  · simp only [blank, if_neg isBlank, List.nil_append]
    cases isBinary : operand.isBinary with
    | true => exact isCut_unary operator (fun _ => by simp [Expr.parenthesized]) (fun _ => by rfl)
    | false =>
        obtain ⟨c, more, text, isHead⟩ := exists_head operand spelled
        rw [Expr.parenthesized, if_neg Bool.false_ne_true, text]
        refine isCut_unary operator (fun _ => by simpa using isHead.notEqual) fun isNegate => ?_
        have noDigit : c.isDigit = false := by
          rw [Bool.eq_false_iff]
          intro isDigit
          -- A digit would be the start of a number, which has a blank in front of it.
          rcases isHead.digit isDigit with isNumber | isOther
          · exact isBlank ⟨isNegate, isNumber⟩
          · rw [isBinary] at isOther
            cases isOther
        simp [Token.startsWithNumber, startsWithDigit, noDigit, isHead.notPoint]

/-- A bracket behind a list of items closes it. -/
def IsList (text : List Char) (kinds : List TokenKind) : Prop :=
  ∀ bracket rest others, Lexed false rest others →
    Lexed true (text ++ Bracket.closing bracket :: rest) (kinds ++ .closing bracket :: others)

/-- A closing bracket is a token, whether an operand is expected or not. -/
theorem lexed_closing (expecting : Bool) (bracket : Bracket) (lexed : Lexed false rest others) :
    Lexed expecting (bracket.closing :: rest) (.closing bracket :: others) :=
  .token (isCut_closing expecting bracket rest) lexed

/-- A closing bracket ends the operand in front of it. -/
theorem endsOperand_closing (bracket : Bracket) (rest : List Char) :
    EndsOperand (bracket.closing :: rest) := by
  cases bracket <;> exact endsOperand_cons (by decide) rest

/-- Operands on both sides of an operator are one. From the last token to the first: where a token
ends depends on what stands behind it. -/
theorem IsOperand.binary {left right : List Char} {lefts rights : List TokenKind}
    (operator : BinaryOperator) (first : IsOperand left lefts) (second : IsOperand right rights) :
    IsOperand (left ++ ' ' :: operator.symbol.toList ++ ' ' :: right)
      (lefts ++ .operator operator :: rights) := by
  intro rest others ends lexed
  have last := second rest others ends lexed
  have between := Lexed.blank (.token (isCut_operator operator _) (.blank last))
  have whole := first _ _ (endsOperand_blank ?_) between
  · simpa using whole
  · cases operator <;> rfl

/-- An operand with a key behind it is one. -/
theorem IsOperand.member {object key : List Char} {objects keys : List TokenKind}
    (first : IsOperand object objects) (second : IsOperand key keys) :
    IsOperand (object ++ '[' :: key ++ [']'])
      (objects ++ .opening .square :: keys ++ [.closing .square]) := by
  intro rest others _ lexed
  have inside := second _ _ (endsOperand_closing .square rest) (lexed_closing false .square lexed)
  have opening : Lexed false ('[' :: (key ++ ']' :: rest))
      (.opening .square :: (keys ++ .closing .square :: others)) :=
    .token (isCut_opening false .square _) inside
  have whole := first _ _ (endsOperand_cons (by decide) _) opening
  simpa using whole

/-- An operand alone is cut into its tokens. -/
theorem IsOperand.lexed (operand : IsOperand text kinds) : Lexed true text kinds := by
  simpa using operand [] [] endsOperand_nil .nil

mutual

/-- The text of an expression is cut into its tokens. -/
theorem isOperand_print : (expr : Expr) → (∀ word ∈ expr.words, word.IsSpelled) →
    IsOperand expr.print expr.printedKinds
  | .number value span, spelled => fun rest others ends lexed => by
      have literal : value.IsLiteral := spelled (.number value) (List.mem_singleton_self _)
      exact .token (isCut_number (Numeric.respelled_reread literal) ends) lexed
  | .text value span, _ => fun rest others _ lexed => .token (isCut_text true value rest) lexed
  | .boolean value span, _ => fun rest others ends lexed =>
      .token (isCut_boolean true value ends) lexed
  | .variable path span, spelled => fun rest others ends lexed =>
      .token (isCut_identifier true (spelled (.identifier path) (List.mem_singleton_self _)) ends)
        lexed
  | .array items span, spelled => fun rest others _ lexed => by
      have inside := isList_print items spelled .square rest others lexed
      have whole : Lexed true ('[' :: (printList items ++ ']' :: rest))
          (.opening .square :: (printedKindsOfList items ++ .closing .square :: others)) :=
        .token (isCut_opening true .square _) inside
      simpa [print, printedKinds] using whole
  | .binary operator left right span, spelled => by
      obtain ⟨spelledLeft, spelledRight⟩ := List.forall_mem_append.mp spelled
      rw [print, printedKinds]
      exact .binary operator ((isOperand_print left spelledLeft).parenthesized _)
        ((isOperand_print right spelledRight).parenthesized _)
  | .unary operator operand span, spelled => fun rest others ends lexed => by
      have inside := (isOperand_print operand spelled).parenthesized operand.isBinary rest others
        ends lexed
      -- A blank keeps the sign from becoming part of a number behind it.
      have spaced (condition : Prop) [Decidable condition] :
          Lexed true ((if condition then [' '] else []) ++
            (Expr.parenthesized operand.isBinary operand.print ++ rest))
            (parenthesizedKinds operand.isBinary operand.printedKinds ++ others) := by
        split
        · exact .blank inside
        · exact inside
      have whole := Lexed.token (isCut_unary_of_head operator operand spelled rest) (spaced _)
      rw [print, printedKinds, List.append_assoc, List.append_assoc, List.cons_append]
      exact whole
  | .call name arguments span, spelled => fun rest others _ lexed => by
      obtain ⟨spelledName, spelledRest⟩ := List.forall_mem_cons.mp spelled
      have inside := isList_print arguments spelledRest .round rest others lexed
      have opening : Lexed false ('(' :: (printList arguments ++ ')' :: rest))
          (.opening .round :: (printedKindsOfList arguments ++ .closing .round :: others)) :=
        .token (isCut_opening false .round _) inside
      have whole := Lexed.token (isCut_method true _ spelledName) opening
      simpa [print, printedKinds] using whole
  | .member object key span, spelled => by
      obtain ⟨spelledObject, spelledKey⟩ := List.forall_mem_append.mp spelled
      rw [print, printedKinds]
      exact .member ((isOperand_print object spelledObject).parenthesized _)
        (isOperand_print key spelledKey)

/-- The printed items of a list are cut into their tokens, up to a closing bracket. -/
theorem isList_print : (items : List Expr) → (∀ word ∈ wordsOfList items, word.IsSpelled) →
    IsList (printList items) (printedKindsOfList items)
  | [], _ => fun bracket rest others lexed => lexed_closing true bracket lexed
  | [expr], spelled => fun bracket rest others lexed => by
      rw [wordsOfList, wordsOfList, List.append_nil] at spelled
      exact isOperand_print expr spelled _ _ (endsOperand_closing bracket rest)
        (lexed_closing false bracket lexed)
  | first :: second :: more, spelled => fun bracket rest others lexed => by
      obtain ⟨spelledFirst, spelledRest⟩ := List.forall_mem_append.mp spelled
      have inside := isList_print (second :: more) spelledRest bracket rest others lexed
      have comma : Lexed false (',' :: ' ' :: (printList (second :: more) ++ bracket.closing :: rest))
          (.comma :: (printedKindsOfList (second :: more) ++ .closing bracket :: others)) :=
        .token (isCut_comma false _) (.blank inside)
      have whole := isOperand_print first spelledFirst _ _ (endsOperand_cons (by decide) _) comma
      rw [printList_cons_cons, printedKindsOfList_cons_cons]
      simpa using whole

end

end Expr

end TextTemplate
