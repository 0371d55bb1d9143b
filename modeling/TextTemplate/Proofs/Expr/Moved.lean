import TextTemplate.Node.Parser
import TextTemplate.Proofs.Expr.Printed
import TextTemplate.Proofs.Expr.Reading
import TextTemplate.Proofs.Token.Cuts

/-! # Expressions in other places

The grammar looks at the kinds of tokens only, so tokens of the same kinds in other places derive an
expression that is the same apart from its spans. A text that is read as an expression is read alike
wherever it is written, and without the separators around it. -/

namespace TextTemplate

open Grammar

namespace Grammar

mutual

/-- Tokens of the same kinds derive the same expression, apart from its spans. -/
theorem Chain.moved : {level : Nat} → {tokens : List Token} → {expr : Expr} →
    Chain level tokens expr → ∀ {others : List Token}, kinds others = kinds tokens →
    ∃ again, Chain level others again ∧ expr.Alike Eq again
  | _, _, _, .operand operand, _, same => by
      obtain ⟨again, derived, alike⟩ := operand.moved same
      exact ⟨again, .operand derived, alike⟩
  | _, _, _, .binary binds left right, _, same => by
      rw [kinds_append, kinds_cons] at same
      obtain ⟨lefts, rest, rfl, sameLeft, rest'⟩ := kinds_eq_append same
      obtain ⟨span, rights, rfl, sameRight⟩ := kinds_eq_cons rest'
      obtain ⟨left', derived, alike⟩ := left.moved sameLeft
      obtain ⟨right', derived', alike'⟩ := right.moved sameRight
      exact ⟨_, .binary binds derived derived', .binary alike alike'⟩

/-- Other tokens of the same kinds have prefix operators in the same places. -/
theorem Prefixed.moved : {tokens : List Token} → {expr : Expr} → Prefixed tokens expr →
    ∀ {others : List Token}, kinds others = kinds tokens →
    ∃ again, Prefixed others again ∧ expr.Alike Eq again
  | _, _, .postfixed operand, _, same => by
      obtain ⟨again, derived, alike⟩ := operand.moved same
      exact ⟨again, .postfixed derived, alike⟩
  | _, _, .unary operand, _, same => by
      obtain ⟨span, others, rfl, within⟩ := kinds_eq_cons same
      obtain ⟨again, derived, alike⟩ := operand.moved within
      exact ⟨_, .unary derived, .unary alike⟩

/-- They have indices and properties in the same places. -/
theorem Postfixed.moved : {tokens : List Token} → {expr : Expr} → Postfixed tokens expr →
    ∀ {others : List Token}, kinds others = kinds tokens →
    ∃ again, Postfixed others again ∧ expr.Alike Eq again
  | _, _, .primary operand, _, same => by
      obtain ⟨again, derived, alike⟩ := operand.moved same
      exact ⟨again, .primary derived, alike⟩
  | _, _, .index object key, _, same => by
      rw [List.append_assoc, kinds_append] at same
      obtain ⟨objects, rest, rfl, sameObject, rest'⟩ := kinds_eq_append same
      rw [kinds_append, kinds_cons, kinds_cons, kinds_nil] at rest'
      obtain ⟨start, keys, stop, rfl, sameKey⟩ := kinds_eq_between rest'
      obtain ⟨object', derived, alike⟩ := object.moved sameObject
      obtain ⟨key', derived', alike'⟩ := key.moved sameKey
      -- The brackets are associated as the grammar has them: behind all that stands before them.
      rw [← List.append_assoc]
      exact ⟨_, .index derived derived', .member alike alike'⟩
  | _, _, .property object, _, same => by
      rw [kinds_append, kinds_cons, kinds_nil] at same
      obtain ⟨objects, rest, rfl, sameObject, rest'⟩ := kinds_eq_append same
      obtain ⟨span, rfl⟩ := kinds_eq_singleton rest'
      obtain ⟨object', derived, alike⟩ := object.moved sameObject
      exact ⟨_, .property derived, .member alike .text⟩

/-- They have the same operands. -/
theorem Primary.moved : {tokens : List Token} → {expr : Expr} → Primary tokens expr →
    ∀ {others : List Token}, kinds others = kinds tokens →
    ∃ again, Primary others again ∧ expr.Alike Eq again
  | _, _, .number value _, _, same => by
      obtain ⟨span, rfl⟩ := kinds_eq_singleton same
      exact ⟨_, .number value span, .number rfl⟩
  | _, _, .text value _, _, same => by
      obtain ⟨span, rfl⟩ := kinds_eq_singleton same
      exact ⟨_, .text value span, .text⟩
  | _, _, .boolean value _, _, same => by
      obtain ⟨span, rfl⟩ := kinds_eq_singleton same
      exact ⟨_, .boolean value span, .boolean⟩
  | _, _, .variable path _, _, same => by
      obtain ⟨span, rfl⟩ := kinds_eq_singleton same
      exact ⟨_, .variable path span, .variable⟩
  -- Tokens of the same kinds are taken apart at the same places.
  | _, _, .call arguments, _, same => by
      rw [List.cons_append, kinds_cons] at same
      obtain ⟨span, rest, rfl, within⟩ := kinds_eq_cons same
      rw [kinds_append, kinds_cons, kinds_cons, kinds_nil] at within
      obtain ⟨start, inside, stop, rfl, inner⟩ := kinds_eq_between within
      obtain ⟨again, derived, alike⟩ := arguments.moved inner
      exact ⟨_, .call derived, .call alike⟩
  | _, _, .group inner, _, same => by
      rw [kinds_append, kinds_cons, kinds_cons, kinds_nil] at same
      obtain ⟨start, inside, stop, rfl, within⟩ := kinds_eq_between same
      obtain ⟨again, derived, alike⟩ := inner.moved within
      exact ⟨again, .group derived, alike⟩
  | _, _, .array items, _, same => by
      rw [kinds_append, kinds_cons, kinds_cons, kinds_nil] at same
      obtain ⟨start, inside, stop, rfl, within⟩ := kinds_eq_between same
      obtain ⟨again, derived, alike⟩ := items.moved within
      exact ⟨_, .array derived, .array alike⟩

/-- They have the same items in their lists. -/
theorem Items.moved : {tokens : List Token} → {items : List Expr} → Items tokens items →
    ∀ {others : List Token}, kinds others = kinds tokens →
    ∃ again, Items others again ∧ Expr.AllAlike Eq items again
  | _, _, .none, _, same => by
      rw [List.map_eq_nil_iff.mp same]
      exact ⟨[], .none, .nil⟩
  | _, _, .some items, _, same => by
      obtain ⟨again, derived, alike⟩ := items.moved same
      exact ⟨again, .some derived, alike⟩

/-- They have commas between the same items. -/
theorem Separated.moved : {tokens : List Token} → {items : List Expr} → Separated tokens items →
    ∀ {others : List Token}, kinds others = kinds tokens →
    ∃ again, Separated others again ∧ Expr.AllAlike Eq items again
  | _, _, .last item, _, same => by
      obtain ⟨again, derived, alike⟩ := item.moved same
      exact ⟨_, .last derived, .cons alike .nil⟩
  | _, _, .cons item rest, _, same => by
      rw [kinds_append, kinds_cons] at same
      obtain ⟨firsts, behind, rfl, sameFirst, others⟩ := kinds_eq_append same
      obtain ⟨span, behind, rfl, sameRest⟩ := kinds_eq_cons others
      obtain ⟨item', derived, alike⟩ := item.moved sameFirst
      obtain ⟨rest', derived', alike'⟩ := rest.moved sameRest
      exact ⟨_, .cons derived derived', .cons alike alike'⟩

end

end Grammar

/-! ### Texts of expressions -/

/-- Whether a text is cut into tokens that derive an expression within the limits. -/
def Spells (limits : Limits) (text : List Char) (expr : Expr) : Prop :=
  expr.Within limits.maxExpressionDepth ∧
    ∃ tokens, Token.Cuts none text (kinds tokens) ∧ tokens ≠ [] ∧ Chain 0 tokens expr

variable {source : Source} {limits : Limits} {expr : Expr} {text : List Char}

/-- The tokens of a text spell what is read from them. -/
theorem spells_of_ofTokens {start stop : Nat} {extent : Span} {tokens : List Token}
    (lexed : Token.lex source text start stop = .ok tokens)
    (read : Expr.ofTokens limits extent tokens = .ok expr) : Spells limits text expr := by
  obtain ⟨chain, within⟩ := Expr.chain_of_ofTokens read
  refine ⟨within, tokens, ?_, ?_, chain⟩
  · unfold Token.lex at lexed
    split at lexed
    next found cut =>
      cases lexed
      have cuts := (Token.cutFrom_of_lexFrom cut).cuts
      simpa [kinds, Function.comp_def] using cuts
    next => cases lexed
  · rintro rfl
    cases read

/-- A whole source that is an expression spells it. -/
theorem Source.spells (read : source.expression limits = .ok expr) :
    Spells limits source.text expr := by
  obtain ⟨tokens, lexed, read⟩ := bind_eq_ok_iff.mp read
  exact spells_of_ofTokens lexed read

/-- The text of an expression in a tag spells it. -/
theorem Node.Parser.spells {tag : Tag} {start : Nat}
    (read : expression source limits tag text start = .ok expr) : Spells limits text expr := by
  obtain ⟨tokens, lexed, read⟩ := bind_eq_ok_iff.mp read
  exact spells_of_ofTokens lexed read

namespace Spells

/-- What a text spells is read from its tokens wherever it stands. -/
theorem ofTokens (spells : Spells limits text expr) (source : Source) (extent : Span)
    (start stop : Nat) :
    ∃ tokens again, Token.lex source text start stop = .ok tokens ∧
      Expr.ofTokens limits extent tokens = .ok again ∧ expr.Alike Eq again := by
  obtain ⟨within, tokens, cuts, -, chain⟩ := spells
  obtain ⟨found, lexed, items⟩ := cuts.lexFrom stop start
  let moved := found.map fun token => (⟨token.item, token.span source⟩ : Token)
  have same : kinds moved = kinds tokens := by
    rw [← items]
    simp [moved, kinds]
  obtain ⟨again, derived, alike⟩ := chain.moved same
  exact ⟨moved, again, by rw [Token.lex, lexed],
    Expr.ofTokens_of_chain derived (alike.within within), alike⟩

/-- What a text spells is read from it in every tag of every source. -/
theorem expression (spells : Spells limits text expr) (source : Source) (tag : Tag) (start : Nat) :
    ∃ again, Node.Parser.expression source limits tag text start = .ok again ∧
      expr.Alike Eq again := by
  obtain ⟨tokens, again, lexed, read, alike⟩ :=
    spells.ofTokens source (source.tagSpan tag) start (start + byteLength text)
  exact ⟨again, bind_eq_ok_iff.mpr ⟨tokens, lexed, read⟩, alike⟩

/-- What a text spells is read from it as a source. -/
theorem expression_source (spells : Spells limits text expr) (name : String) :
    ∃ again, Source.expression ⟨name, text⟩ limits = .ok again ∧ expr.Alike Eq again := by
  obtain ⟨tokens, again, lexed, read, alike⟩ := spells.ofTokens ⟨name, text⟩ _ 0 (byteLength text)
  exact ⟨again, bind_eq_ok_iff.mpr ⟨tokens, lexed, read⟩, alike⟩

/-- A text that spells an expression has a trimmed text between separators that does as well. -/
theorem exists_trimmed (spells : Spells limits text expr) :
    ∃ before middle after, text = before ++ (middle ++ after) ∧
      (∀ c ∈ before, isSeparator c = true) ∧ (∀ c ∈ after, isSeparator c = true) ∧
      Spells limits middle expr ∧ IsTrimmed middle := by
  obtain ⟨within, tokens, cuts, nonempty, chain⟩ := spells
  obtain ⟨before, middle, after, same, areBefore, areAfter, cuts, trimmed⟩ :=
    cuts.exists_trimmed (by simpa [kinds] using nonempty)
  exact ⟨before, middle, after, same, areBefore, areAfter, ⟨within, tokens, cuts, nonempty, chain⟩,
    trimmed⟩

end Spells

end TextTemplate
