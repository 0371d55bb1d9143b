import TextTemplate.Proofs.Expr.Grammar

/-! # The words of expressions

The numbers, paths and method names of an expression are tokens of the text that it was read from,
so what holds of tokens holds of them. Strings are left out: a string may also come from a name
after a dot, and any string has a spelling. -/

namespace TextTemplate

namespace Expr

mutual

/-- The numbers, paths and method names of an expression, in order. -/
def words : Expr → List TokenKind
  | .number value _ => [.number value]
  | .text _ _ | .boolean _ _ => []
  | .array items _ => wordsOfList items
  | .variable path _ => [.identifier path]
  | .binary _ left right _ => words left ++ words right
  | .unary _ operand _ => words operand
  | .call name arguments _ => .method name :: wordsOfList arguments
  | .member object key _ => words object ++ words key

/-- The numbers, paths and method names of several expressions. -/
def wordsOfList : List Expr → List TokenKind
  | [] => []
  | expr :: rest => words expr ++ wordsOfList rest

end

end Expr

namespace Grammar

/-- The kinds of tokens. -/
def kinds (tokens : List Token) : List TokenKind := tokens.map Token.kind

@[simp] theorem kinds_nil : kinds [] = [] := rfl

@[simp] theorem kinds_cons (token : Token) (tokens : List Token) :
    kinds (token :: tokens) = token.kind :: kinds tokens := rfl

@[simp] theorem kinds_append (left right : List Token) :
    kinds (left ++ right) = kinds left ++ kinds right := List.map_append

mutual

/-- The words of an expression are among its tokens. -/
theorem Chain.words_subset : {level : Nat} → {tokens : List Token} → {expr : Expr} →
    Chain level tokens expr → expr.words ⊆ kinds tokens
  | _, _, _, .operand operand => operand.words_subset
  | _, _, _, .binary _ left right => by
      intro word isWord
      rcases List.mem_append.mp isWord with isLeft | isRight
      · simp [left.words_subset isLeft]
      · simp [right.words_subset isRight]

/-- A prefix operator adds a token, but no word. -/
theorem Prefixed.words_subset : {tokens : List Token} → {expr : Expr} →
    Prefixed tokens expr → expr.words ⊆ kinds tokens
  | _, _, .postfixed operand => operand.words_subset
  | _, _, .unary operand => List.subset_cons_of_subset _ operand.words_subset

/-- The words of an index or of a property are those of the object and of the key. -/
theorem Postfixed.words_subset : {tokens : List Token} → {expr : Expr} →
    Postfixed tokens expr → expr.words ⊆ kinds tokens
  | _, _, .primary operand => operand.words_subset
  | _, _, .index object key => by
      intro word isWord
      rcases List.mem_append.mp isWord with isObject | isKey
      · simp [object.words_subset isObject]
      · simp [key.words_subset isKey]
  | _, _, .property object => by
      intro word isWord
      rw [Expr.words, Expr.words, List.append_nil] at isWord
      simp [object.words_subset isWord]

/-- A word is the token of an operand, and the name of a call is one more. -/
theorem Primary.words_subset : {tokens : List Token} → {expr : Expr} →
    Primary tokens expr → expr.words ⊆ kinds tokens
  | _, _, .number _ _ => by simp [Expr.words]
  | _, _, .text _ _ => by simp [Expr.words]
  | _, _, .boolean _ _ => by simp [Expr.words]
  | _, _, .variable _ _ => by simp [Expr.words]
  | _, _, .call arguments => by
      intro word isWord
      rcases List.mem_cons.mp isWord with rfl | isArgument
      · simp
      · simp [arguments.words_subset isArgument]
  | _, _, .group inner => fun word isWord => by simp [inner.words_subset isWord]
  | _, _, .array items => fun word isWord => by simp [items.words_subset isWord]

/-- The words of a list are those of its items. -/
theorem Items.words_subset : {tokens : List Token} → {items : List Expr} →
    Items tokens items → Expr.wordsOfList items ⊆ kinds tokens
  | _, _, .none => List.nil_subset _
  | _, _, .some items => items.words_subset

/-- Commas between items are no words. -/
theorem Separated.words_subset : {tokens : List Token} → {items : List Expr} →
    Separated tokens items → Expr.wordsOfList items ⊆ kinds tokens
  | _, _, .last item => fun word isWord => by
      rw [Expr.wordsOfList, Expr.wordsOfList, List.append_nil] at isWord
      exact item.words_subset isWord
  | _, _, .cons item rest => by
      intro word isWord
      rcases List.mem_append.mp isWord with isItem | isRest
      · simp [item.words_subset isItem]
      · simp [rest.words_subset isRest]

end

end Grammar

end TextTemplate
