import TextTemplate.Proofs.Expr.Balanced
import TextTemplate.Proofs.Expr.Expected
import TextTemplate.Proofs.Expr.Lexed
import TextTemplate.Proofs.Expr.Spans
import TextTemplate.Proofs.Node.Words

/-! # Printed parentheses are needed

The text of an expression has parentheses around an operand only where it would be read as another
expression without them, if it could be read at all. What the text is read as without a pair of them
has the operand in parentheses as well, but all that are left belong to parts of the operand, and
have too few operators in them, or are closed too early. -/

namespace TextTemplate

namespace Expr

/-! ### Places for parentheses -/

/-- A place for an operand in the text of an expression, with what is written around it. -/
structure Place where
  operand : Expr
  /-- Whether there are parentheses around the operand. -/
  grouped : Bool
  before : List Char
  after : List Char

/-- The text of the expression with parentheses in the place or without them. -/
def Place.text (place : Place) (grouped : Bool) : List Char :=
  place.before ++ (parenthesized grouped place.operand.print ++ place.after)

/-- The places in the text of an expression where parentheses may be needed: the operands of
operators, and what a key is taken of. Lists and keys have brackets of their own. -/
def places : Expr → List Place
  | .binary operator left right _ =>
      [⟨left, needsParentheses operator left .right, [],
          ' ' :: operator.symbol.toList ++
            ' ' :: parenthesized (needsParentheses operator right .left) right.print⟩,
        ⟨right, needsParentheses operator right .left,
          parenthesized (needsParentheses operator left .right) left.print ++
            ' ' :: operator.symbol.toList ++ [' '], []⟩]
  | .unary operator operand _ =>
      [⟨operand, operand.isBinary, operator.symbol.toList ++
        if operator = .negate ∧ operand.startsWithNumber then [' '] else [], []⟩]
  | .member object key _ => [⟨object, !object.isIndexable, [], '[' :: key.print ++ [']']⟩]
  | _ => []

/-- An expression is written with the parentheses of its places. -/
theorem print_eq_text {expr : Expr} {place : Place} (isPlace : place ∈ expr.places) :
    expr.print = place.text place.grouped := by
  cases expr with
  | binary operator left right span =>
      simp only [places, List.mem_cons, List.not_mem_nil, or_false] at isPlace
      rcases isPlace with rfl | rfl <;> simp [print, Place.text]
  | unary operator operand span =>
      obtain rfl := List.mem_singleton.mp isPlace
      simp [print, Place.text]
  | member object key span =>
      obtain rfl := List.mem_singleton.mp isPlace
      simp [print, Place.text]
  | _ => cases isPlace

/-! ### Words of parts -/

variable {expr part : Expr}

/-- The words of an operand are words of the expression. -/
theorem words_subset_of_operand (isOperand : part ∈ expr.operands) : part.words ⊆ expr.words := by
  have listed {exprs : List Expr} (isMember : part ∈ exprs) : part.words ⊆ wordsOfList exprs := by
    induction exprs with
    | nil => cases isMember
    | cons first rest ih =>
        rcases List.mem_cons.mp isMember with rfl | isMember
        · exact List.subset_append_left _ _
        · exact List.subset_append_of_subset_right _ (ih isMember)
  cases expr with
  | array items span => exact listed isOperand
  | call name arguments span => exact List.subset_cons_of_subset _ (listed isOperand)
  | unary operator operand span => simpa [operands, wordsOfList, words] using listed isOperand
  | binary operator left right span | member left right span =>
      simpa [operands, wordsOfList, words] using listed isOperand
  | _ => cases isOperand

/-- So are the words of every part. -/
theorem words_subset_of_part (isPart : part ∈ expr.parts) : part.words ⊆ expr.words := by
  induction isSize : sizeOf expr using Nat.strong_induction_on generalizing expr with
  | _ size ih =>
  subst isSize
  rw [parts_eq, List.mem_cons, mem_partsOfList] at isPart
  rcases isPart with rfl | ⟨operand, isOperand, isPart⟩
  · exact List.Subset.refl _
  · exact List.Subset.trans (ih _ (sizeOf_lt_of_mem_operands isOperand) isPart rfl)
      (words_subset_of_operand isOperand)

end Expr

namespace Grammar

open TextTemplate.Expr

/-! ### Tokens of printed expressions -/

variable {expr : Expr}

/-- The tokens of a printed expression derive one that is built alike. -/
theorem exists_derived (spelled : ∀ word ∈ expr.words, word.IsSpelled) :
    ∃ tokens again, kinds tokens = expr.printedKinds ∧ Chain 0 tokens again ∧
      Expr.Alike Numeric.Respelled expr again := by
  let tokens := expr.printedKinds.map fun kind => (⟨kind, ⟨.first, .first⟩⟩ : Token)
  have same : kinds tokens = expr.printedKinds := by simp [tokens, kinds, Function.comp_def]
  obtain ⟨again, alike, derived⟩ := derived_of_printedKinds expr spelled tokens same
  exact ⟨tokens, again, same, derived.chain, alike⟩

/-- They are balanced. -/
theorem isBalanced_printedKinds (spelled : ∀ word ∈ expr.words, word.IsSpelled) :
    IsBalanced expr.printedKinds := by
  obtain ⟨tokens, again, same, chain, -⟩ := exists_derived spelled
  rw [← same]
  exact chain.isBalanced

/-- There are as many operators among them as the expression has operations. -/
theorem operators_printedKinds (spelled : ∀ word ∈ expr.words, word.IsSpelled) :
    operators expr.printedKinds = expr.operations := by
  obtain ⟨tokens, again, same, chain, alike⟩ := exists_derived spelled
  rw [← same, chain.operators_eq, alike.operations_eq]

/-- Every expression is printed as some tokens. -/
theorem printedKinds_ne_nil (expr : Expr) : expr.printedKinds ≠ [] := by
  cases expr <;> simp [printedKinds]

/-- A pair of parentheses more leaves tokens balanced. -/
theorem isBalanced_parenthesizedKinds {tokens : List TokenKind} (balanced : IsBalanced tokens)
    (grouped : Bool) : IsBalanced (parenthesizedKinds grouped tokens) := by
  cases grouped with
  | false => exact balanced
  | true => exact balanced.enclosed .round .round

/-- Tokens with parentheses around them are still some. -/
theorem parenthesizedKinds_ne_nil {tokens : List TokenKind} (nonempty : tokens ≠ [])
    (grouped : Bool) : parenthesizedKinds grouped tokens ≠ [] := by
  cases grouped with
  | false => exact nonempty
  | true => exact List.cons_ne_nil _ _

/-! ### Parentheses that are too small -/

variable {front behind others others' group : List TokenKind}

/-- Parentheses at the start of tokens that start with balanced ones lie in these. -/
theorem IsGroup.operators_le_front (isGroup : IsGroup group) (balanced : IsBalanced front)
    (nonempty : front ≠ []) (same : group ++ others = front ++ others') :
    operators group ≤ operators front := by
  obtain ⟨middle, rfl, -⟩ | ⟨middle, rfl, -⟩ := List.append_eq_append_iff.mp same
  · rw [operators_append]
    exact Nat.le_add_right _ _
  · rw [isGroup.eq_nil_of_front balanced nonempty, List.append_nil]

/-- Parentheses at the end of tokens that end with balanced ones lie in these. -/
theorem IsGroup.operators_le_behind (isGroup : IsGroup group) (balanced : IsBalanced behind)
    (nonempty : behind ≠ []) (same : others ++ group = others' ++ behind) :
    operators group ≤ operators behind := by
  obtain ⟨middle, -, rfl⟩ | ⟨middle, -, rfl⟩ := List.append_eq_append_iff.mp same
  · rw [isGroup.eq_nil_of_behind balanced nonempty, List.nil_append]
  · rw [operators_append]
    exact Nat.le_add_left _ _

/-- The tokens of an operation are not in parentheses. -/
theorem not_isGroup_printedKinds (spelled : ∀ word ∈ expr.words, word.IsSpelled)
    (isOperation : expr.isOperation = true) : ¬IsGroup expr.printedKinds := by
  intro isGroup
  cases expr with
  | binary operator left right span =>
      have spelledLeft := (List.forall_mem_append.mp spelled).1
      rw [printedKinds] at isGroup
      have none := isGroup.eq_nil_of_front
        (isBalanced_parenthesizedKinds (isBalanced_printedKinds spelledLeft) _)
        (parenthesizedKinds_ne_nil (printedKinds_ne_nil left) _)
      cases none
  | unary operator operand span =>
      obtain ⟨inside, same, -⟩ := isGroup
      cases same
  | _ => cases isOperation

/-! ### Operands without their parentheses -/

variable {same : Numeric → Numeric → Prop} {tokens : List Token} {kinds' : List TokenKind}
  {again left right : Expr} {span : Span} {operator inner : BinaryOperator}

/-- Only operations between two operands are in parentheses beside an operator. -/
theorem exists_binary_of_needs {regrouping : Associativity}
    (needs : needsParentheses operator expr regrouping = true) :
    ∃ inner first second span, expr = .binary inner first second span := by
  cases expr with
  | binary inner first second span => exact ⟨inner, first, second, span, rfl⟩
  | _ => cases needs

/-- An operation in parentheses on the left binds more weakly than what may stand there. -/
theorem lt_leftLevel_of_needs
    (needs : needsParentheses operator (.binary inner left right span) .right = true) :
    inner.precedence < operator.leftLevel := by
  cases associates : operator.associativity <;>
    simp [needsParentheses, BinaryOperator.leftLevel, associates] at needs ⊢ <;> omega

/-- So does one on the right. -/
theorem lt_rightLevel_of_needs
    (needs : needsParentheses operator (.binary inner left right span) .left = true) :
    inner.precedence < operator.rightLevel := by
  cases associates : operator.associativity <;>
    simp [needsParentheses, BinaryOperator.rightLevel, associates] at needs ⊢ <;> omega

/-- Without its parentheses a left operand is not the left operand. -/
theorem not_alike_left (needs : needsParentheses operator left .right = true)
    (spelled : ∀ word ∈ left.words, word.IsSpelled)
    (isText : kinds tokens = left.printedKinds ++ .operator operator :: kinds')
    (chain : Chain 0 tokens again) : ¬Expr.Alike same (.binary operator left right span) again := by
  intro alike
  obtain ⟨inner, first, second, span', rfl⟩ := exists_binary_of_needs needs
  have balanced := isBalanced_printedKinds spelled
  have counts := operators_printedKinds spelled
  have spelledFirst := (List.forall_mem_append.mp spelled).1
  cases alike with
  | binary alike _ =>
  obtain isGroup | ⟨lefts, rights, split, derived, -⟩ := chain.isGroup_or_binary
  · rw [isText] at isGroup
    cases isGroup.eq_nil_of_front balanced (printedKinds_ne_nil _)
  · -- What is left of the operator must be in parentheses, but those end with the first operand.
    have same := derived.operators_eq.trans alike.operations_eq
    cases alike with
    | binary =>
    have isGroup := derived.isGroup_of_lt (lt_leftLevel_of_needs needs)
    rw [isText, printedKinds, List.append_assoc] at split
    have few := isGroup.operators_le_front
      (isBalanced_parenthesizedKinds (isBalanced_printedKinds spelledFirst) _)
      (parenthesizedKinds_ne_nil (printedKinds_ne_nil first) _) split.symm
    rw [same, ← counts, printedKinds, operators_append, operators_cons, isOperator, if_pos rfl] at few
    omega

/-- Nor is a right one the right operand. -/
theorem not_alike_right (needs : needsParentheses operator right .left = true)
    (spelled : ∀ word ∈ right.words, word.IsSpelled)
    (isText : kinds tokens = kinds' ++ .operator operator :: right.printedKinds)
    (chain : Chain 0 tokens again) : ¬Expr.Alike same (.binary operator left right span) again := by
  intro alike
  obtain ⟨inner, first, second, span', rfl⟩ := exists_binary_of_needs needs
  have balanced := isBalanced_printedKinds spelled
  have counts := operators_printedKinds spelled
  have spelledSecond := (List.forall_mem_append.mp spelled).2
  cases alike with
  | binary _ alike =>
  rw [List.append_cons] at isText
  obtain isGroup | ⟨lefts, rights, split, -, derived⟩ := chain.isGroup_or_binary
  · rw [isText] at isGroup
    have none := isGroup.eq_nil_of_behind balanced (printedKinds_ne_nil _)
    simp at none
  · -- What is right of the operator must be in parentheses, but those start in the second operand.
    have same := derived.operators_eq.trans alike.operations_eq
    cases alike with
    | binary =>
    have isGroup := derived.isGroup_of_lt (lt_rightLevel_of_needs needs)
    rw [isText, List.append_cons (kinds lefts), printedKinds, List.append_cons (parenthesizedKinds _ _),
      ← List.append_assoc] at split
    have few := isGroup.operators_le_behind
      (isBalanced_parenthesizedKinds (isBalanced_printedKinds spelledSecond) _)
      (parenthesizedKinds_ne_nil (printedKinds_ne_nil second) _) split.symm
    rw [same, ← counts, printedKinds, operators_append, operators_cons, isOperator, if_pos rfl] at few
    omega

variable {operand object key : Expr} {unary : UnaryOperator}

/-- Without its parentheses an operation between two operands is not the operand of an operator in
front of it, whether that is still cut off or starts a number. -/
theorem not_alike_operand (isBinary : operand.isBinary = true)
    (spelled : ∀ word ∈ operand.words, word.IsSpelled)
    (isText : kinds tokens = .unary unary :: operand.printedKinds ∨
      ∃ value, (kinds tokens).head? = some (.number value))
    (chain : Chain 0 tokens again) : ¬Expr.Alike same (.unary unary operand span) again := by
  intro alike
  have isOperation : operand.isOperation = true := by
    cases operand <;> first | rfl | cases isBinary
  have noGroup : ¬IsGroup (kinds tokens) := by
    rintro ⟨inside, same, -⟩
    obtain isText | ⟨value, isHead⟩ := isText
    · cases isText.symm.trans same
    · rw [same] at isHead
      cases isHead
  cases alike with
  | unary alike =>
  -- What is read again would be binary as well, and only parentheses make that one operand.
  rw [← alike.isBinary_eq] at isBinary
  cases chain with
  | operand derived =>
  cases derived with
  | postfixed derived => exact noGroup (derived.isGroup rfl)
  | unary derived =>
      obtain isText | ⟨value, isHead⟩ := isText
      · have isGroup := derived.isGroup isBinary
        rw [kinds_cons] at isText
        rw [(List.cons.inj isText).2] at isGroup
        exact not_isGroup_printedKinds spelled isOperation isGroup
      · cases isHead

/-- Without its parentheses an operation is not what a key is taken of. -/
theorem not_alike_object (isOperation : object.isOperation = true)
    (spelled : ∀ word ∈ object.words, word.IsSpelled)
    (spelledKey : ∀ word ∈ key.words, word.IsSpelled)
    (isText : kinds tokens =
      object.printedKinds ++ .opening .square :: key.printedKinds ++ [.closing .square])
    (chain : Chain 0 tokens again) : ¬Expr.Alike same (.member object key span) again := by
  intro alike
  have noGroup : ¬IsGroup (kinds tokens) := by
    rw [isText, List.append_assoc]
    intro isGroup
    cases isGroup.eq_nil_of_front (isBalanced_printedKinds spelled) (printedKinds_ne_nil object)
  cases alike with
  | member alike _ =>
  cases chain with
  | operand derived =>
  cases derived with
  | postfixed derived =>
  cases derived with
  | primary derived =>
      cases derived with
      | group inner => exact noGroup ⟨_, by simp, inner.isBalanced⟩
  | @index before keys _ _ _ _ derived inner =>
      -- Both keys end the text in brackets of their own, so what is in front of them is the same.
      rw [kinds_append, kinds_append] at isText
      obtain ⟨isText, -⟩ := List.append_inj' isText rfl
      have same := eq_of_brackets derived.isBalanced (isBalanced_printedKinds spelled)
        inner.isBalanced (isBalanced_printedKinds spelledKey) isText
      have isGroup := derived.isGroup (alike.isOperation_eq.trans isOperation)
      rw [same] at isGroup
      exact not_isGroup_printedKinds spelled isOperation isGroup
  | property derived =>
      rw [kinds_append] at isText
      cases (List.append_inj' isText rfl).2

end Grammar

/-! ### Texts without a pair of parentheses -/

namespace Source

open TextTemplate.Expr

variable {source : Source} {limits : Limits} {again : Expr} {text : List Char}
  {kinds : List TokenKind}

/-- What a source is read as, its tokens derive. -/
theorem exists_chain_of_lexed (isText : source.text = text) (lexed : Token.Lexed true text kinds)
    (reads : source.expression limits = .ok again) :
    ∃ tokens, Grammar.kinds tokens = kinds ∧ Grammar.Chain 0 tokens again := by
  subst isText
  obtain ⟨tokens', lexed', same⟩ := Token.lex_of_lexed lexed source 0 source.size
  obtain ⟨tokens, lexed, read⟩ := bind_eq_ok_iff.mp reads
  obtain rfl := Except.ok.inj (lexed.symm.trans lexed')
  exact ⟨tokens, same, (Expr.chain_of_ofTokens read).1⟩

/-- A minus sign directly in front of a number is cut off with it. -/
theorem exists_chain_of_sign {rest : List Char} (isText : source.text = '-' :: rest)
    (isNumber : Token.startsWithNumber rest = true)
    (reads : source.expression limits = .ok again) :
    ∃ tokens, (∃ value, (Grammar.kinds tokens).head? = some (.number value)) ∧
      Grammar.Chain 0 tokens again := by
  obtain ⟨tokens, lexed, read⟩ := bind_eq_ok_iff.mp reads
  refine ⟨tokens, ?_, (Expr.chain_of_ofTokens read).1⟩
  rw [Source.tokens, isText, Token.lex] at lexed
  split at lexed
  next found cut =>
    cases lexed
    generalize signed : '-' :: rest = text at cut
    cases Token.cutFrom_of_lexFrom cut with
    | nil => cases signed
    | separator separates =>
        cases signed
        cases separates
    | token _ _ first =>
        cases signed
        -- The sign itself starts no number, but nothing stands in front of it that it could be an
        -- operator behind.
        have noNumber (text : List Char) : ¬Token.startsWithNumber ('-' :: text) = true :=
          Bool.false_ne_true
        rw [Token.lexToken, if_neg (noNumber _), if_pos ⟨rfl, rfl⟩, if_pos isNumber] at first
        obtain ⟨value, rfl⟩ := Token.number_of_lexNumber first
        exact ⟨value, rfl⟩
  next => cases lexed

end Source

namespace Expr

variable {source : Source} {limits : Limits} {again parent : Expr} {place : Place}
  {same : Numeric → Numeric → Prop}

/-- The text of an expression without the parentheses in one of its places is not read as the
expression. -/
theorem not_alike_of_text (spelled : ∀ word ∈ parent.words, word.IsSpelled)
    (isPlace : place ∈ parent.places) (grouped : place.grouped = true)
    (isOperation : place.operand.isOperation = true) (isText : source.text = place.text false)
    (reads : source.expression limits = .ok again) : ¬parent.Alike same again := by
  cases parent with
  | binary operator left right span =>
      obtain ⟨spelledLeft, spelledRight⟩ := List.forall_mem_append.mp spelled
      have first := isOperand_print left spelledLeft
      have second := isOperand_print right spelledRight
      simp only [places, List.mem_cons, List.not_mem_nil, or_false] at isPlace
      rcases isPlace with rfl | rfl
      · have whole := (IsOperand.binary operator first
          (second.parenthesized (needsParentheses operator right .left))).lexed
        obtain ⟨tokens, kinds, chain⟩ := Source.exists_chain_of_lexed
          (isText.trans (by simp [Place.text, parenthesized])) whole reads
        exact Grammar.not_alike_left grouped spelledLeft kinds chain
      · have whole := (IsOperand.binary operator
          (first.parenthesized (needsParentheses operator left .right)) second).lexed
        obtain ⟨tokens, kinds, chain⟩ := Source.exists_chain_of_lexed
          (isText.trans (by simp [Place.text, parenthesized])) whole reads
        exact Grammar.not_alike_right grouped spelledRight kinds chain
  | unary operator operand span =>
      obtain rfl := List.mem_singleton.mp isPlace
      have noBlank : operand.startsWithNumber = false := by
        cases operand <;> first | rfl | cases grouped
      have isText : source.text = operator.symbol.toList ++ operand.print := by
        rw [isText]
        simp [Place.text, parenthesized, noBlank]
      -- A minus sign in front of a number is cut off with it, and is no operator then.
      by_cases isSign : operator = .negate ∧ Token.startsWithNumber operand.print = true
      · obtain ⟨rfl, isNumber⟩ := isSign
        obtain ⟨tokens, isHead, chain⟩ := Source.exists_chain_of_sign isText isNumber reads
        exact Grammar.not_alike_operand grouped spelled (.inr isHead) chain
      · obtain ⟨c, rest, isHead, starts⟩ := exists_head operand spelled
        have isCut : Token.IsCut true operator.symbol.toList operand.print (.unary operator) :=
          Token.isCut_unary operator (fun _ => by simpa [isHead] using starts.notEqual)
            fun isNegate => by simpa [isNegate] using isSign
        obtain ⟨tokens, kinds, chain⟩ := Source.exists_chain_of_lexed isText
          (.token isCut (isOperand_print operand spelled).lexed) reads
        exact Grammar.not_alike_operand grouped spelled (.inl kinds) chain
  | member object key span =>
      obtain ⟨spelledObject, spelledKey⟩ := List.forall_mem_append.mp spelled
      obtain rfl := List.mem_singleton.mp isPlace
      have whole := ((isOperand_print object spelledObject).member
        (isOperand_print key spelledKey)).lexed
      obtain ⟨tokens, kinds, chain⟩ := Source.exists_chain_of_lexed
        (isText.trans (by simp [Place.text, parenthesized])) whole reads
      exact Grammar.not_alike_object isOperation spelledObject spelledKey kinds chain
  | _ => cases isPlace

/-- Printed parentheses are needed. Take an expression that a text is read as, whether it is a whole
source or stands in one, a part of the expression, and an operation that is printed in parentheses
as an operand of the part. If the text of the part is read as anything without this pair of
parentheses, it is read as an expression that is built in another way, however numbers are
compared. -/
theorem parentheses_needed {origin source : Source} {text : List Char} {start stop : Nat}
    {limits limits' : Limits} {extent : Span} {tokens : List Token} {root parent : Expr}
    {place : Place} (lexed : Token.lex origin text start stop = .ok tokens)
    (read : ofTokens limits extent tokens = .ok root) (isPart : parent ∈ root.parts)
    (isPlace : place ∈ parent.places) (grouped : place.grouped = true)
    (isOperation : place.operand.isOperation = true) :
    parent.print = place.text true ∧
      (source.text = place.text false → ∀ again, source.expression limits' = .ok again →
        ∀ same : Numeric → Numeric → Prop, ¬parent.Alike same again) := by
  refine ⟨by rw [print_eq_text isPlace, grouped], fun isText again reads same => ?_⟩
  have spelled := Source.isSpelled_of_ofTokens lexed read
  exact not_alike_of_text (fun word isWord => spelled word (words_subset_of_part isPart isWord))
    isPlace grouped isOperation isText reads

/-- Without its parentheses the base of a power takes the exponent for its own. -/
theorem parentheses_needed_of_power :
    let origin : Source := ⟨"origin", "(a ** b) ** c".toList⟩
    let source : Source := ⟨"source", "a ** b ** c".toList⟩
    let base : Expr := .binary .power (.variable "a" ⟨⟨1, 2⟩, ⟨1, 3⟩⟩)
      (.variable "b" ⟨⟨1, 7⟩, ⟨1, 8⟩⟩) ⟨⟨1, 2⟩, ⟨1, 8⟩⟩
    let power : Expr := .binary .power base (.variable "c" ⟨⟨1, 13⟩, ⟨1, 14⟩⟩) ⟨⟨1, 2⟩, ⟨1, 14⟩⟩
    let place : Place := ⟨base, true, [], " ** c".toList⟩
    (origin.expression {} = .ok power ∧ power ∈ power.parts ∧ place ∈ power.places ∧
      place.grouped = true ∧ place.operand.isOperation = true) ∧
      power.print = place.text true ∧ source.text = place.text false ∧
      ∃ again, source.expression {} = .ok again ∧ ¬power.Alike Eq again := by
  intro origin source base power place
  have read : origin.expression {} = .ok power := rfl
  have isPart : power ∈ power.parts := List.mem_cons_self
  have isPlace : place ∈ power.places := List.mem_cons_self
  have isText : source.text = place.text false := rfl
  have reads : (source.expression {}).toOption.isSome = true := by decide +kernel
  obtain ⟨again, isAgain⟩ := Option.isSome_iff_exists.mp reads
  rw [toOption_eq_some_iff] at isAgain
  obtain ⟨tokens, lexed, derived⟩ := bind_eq_ok_iff.mp read
  obtain ⟨isPrint, differs⟩ := parentheses_needed lexed derived isPart isPlace rfl rfl
  exact ⟨⟨read, isPart, isPlace, rfl, rfl⟩, isPrint, isText, again, isAgain,
    differs isText again isAgain Eq⟩

end Expr

end TextTemplate
