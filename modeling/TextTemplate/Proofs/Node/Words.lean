import TextTemplate.Proofs.Expr.Reading
import TextTemplate.Proofs.Expr.Words
import TextTemplate.Proofs.Node.Reading
import TextTemplate.Proofs.Token.Spelled

/-! # The words of templates

Every expression of a template was read from the tokens of a tag, so the words of a template are
such as may come from a text. -/

namespace TextTemplate

/-! ### Expressions of events -/

/-- The expression that an event has. -/
def Event.expr? : Event → Option Expr
  | .interpolation expr _ | .opensChoice expr _ | .opensLoop _ _ expr _ | .elseIf expr => some expr
  | .text _ _ | .comment _ _ | .otherwise | .closes _ _ => none

/-- The words of the expression that an event has. -/
def Event.words (event : Event) : List TokenKind := event.expr?.elim [] Expr.words

namespace Source

variable {source : Source} {limits : Limits}

/-- The expression of an event was read from a tag. -/
theorem expression_of_event {piece : Piece} {event : Event} {expr : Expr}
    (said : source.event? limits piece = some event) (has : event.expr? = some expr) :
    ∃ tag text start, Node.Parser.expression source limits tag text start = .ok expr := by
  cases piece with
  | text =>
      cases said
      cases has
  | unclosed => cases said
  | tag tag =>
      cases kind : tag.kind with
      | interpolation =>
          simp only [event?, kind, Option.map_eq_some_iff, toOption_eq_some_iff] at said
          obtain ⟨read, isRead, rfl⟩ := said
          cases has
          exact ⟨_, _, _, isRead⟩
      | comment =>
          simp only [event?, kind, Option.some.injEq] at said
          subst said
          cases has
      | statement =>
          simp only [event?, kind] at said
          obtain ⟨keyword, spelled, isKeyword⟩ := keyword_of_statementEvent said
          have isTag : tag.keyword? = some keyword := by simp [Tag.keyword?, kind, isKeyword]
          -- What the statement says depends on its keyword, and four of those come with an
          -- expression.
          rw [← event_of_keyword isTag] at said
          cases keyword with
          | opens block =>
              cases block with
              | choice =>
                  obtain ⟨-, condition, isRead, rfl⟩ := (event_choice_iff isTag).mp said
                  cases has
                  exact ⟨_, _, _, isRead⟩
              | loop =>
                  obtain ⟨header, entries, -, isRead, rfl⟩ := (event_loop_iff isTag).mp said
                  cases has
                  exact ⟨_, _, _, isRead⟩
          | elseIf =>
              obtain ⟨-, condition, isRead, rfl⟩ := (event_elseIf_iff isTag).mp said
              cases has
              exact ⟨_, _, _, isRead⟩
          | otherwise =>
              obtain ⟨-, rfl⟩ := (event_otherwise_iff isTag).mp said
              cases has
          | closes block =>
              obtain ⟨-, rfl⟩ := (event_closes_iff isTag).mp said
              cases has

/-- The words of an expression that is read from the tokens of a text may come from a text. -/
theorem isSpelled_of_ofTokens {text : List Char} {start stop : Nat} {extent : Span}
    {tokens : List Token} {expr : Expr} (lexed : Token.lex source text start stop = .ok tokens)
    (read : Expr.ofTokens limits extent tokens = .ok expr) :
    ∀ word ∈ expr.words, word.IsSpelled := by
  intro word isWord
  have isKind := (Expr.chain_of_ofTokens read).1.words_subset isWord
  unfold Token.lex at lexed
  split at lexed
  next found cut =>
    cases lexed
    simp only [Grammar.kinds, List.map_map, List.mem_map, Function.comp_apply] at isKind
    obtain ⟨token, isFound, rfl⟩ := isKind
    exact Token.isSpelled_lexFrom cut token isFound
  next => cases lexed

/-- The words of an expression in a tag may come from a text. -/
theorem isSpelled_of_expression {tag : Tag} {text : List Char} {start : Nat} {expr : Expr}
    (isRead : Node.Parser.expression source limits tag text start = .ok expr) :
    ∀ word ∈ expr.words, word.IsSpelled := by
  obtain ⟨tokens, lexed, read⟩ := bind_eq_ok_iff.mp isRead
  exact isSpelled_of_ofTokens lexed read

/-- The words of what pieces say may come from a text. -/
theorem Says.isSpelled {pieces : List Piece} {events : List Event}
    (said : source.Says limits pieces events) :
    ∀ event ∈ events, ∀ word ∈ event.words, word.IsSpelled := by
  intro event isEvent word isWord
  cases has : event.expr? with
  | none => simp [Event.words, has] at isWord
  | some expr =>
      obtain ⟨piece, -, here⟩ := said.exists_piece event isEvent
      obtain ⟨tag, text, start, isRead⟩ := expression_of_event here has
      exact isSpelled_of_expression isRead word (by simpa [Event.words, has] using isWord)

end Source

/-! ### Words of nodes -/

namespace Node

mutual

/-- The words of a node, in order. -/
def words : Node → List TokenKind
  | .text _ _ | .comment _ _ => []
  | .interpolation expr _ => expr.words
  | .loop _ _ source body _ => source.words ++ wordsOfList body
  | .choice branches otherwise _ => wordsOfBranches branches ++ wordsOfOption otherwise

/-- The words of several nodes. -/
def wordsOfList : List Node → List TokenKind
  | [] => []
  | node :: rest => words node ++ wordsOfList rest

/-- The words of several branches. -/
def wordsOfBranches : List (Expr × List Node) → List TokenKind
  | [] => []
  | (condition, body) :: rest => condition.words ++ wordsOfList body ++ wordsOfBranches rest

/-- The words of the last branch. -/
def wordsOfOption : Option (List Node) → List TokenKind
  | none => []
  | some body => wordsOfList body

end

mutual

/-- The words of nodes that make a body are those of its events. -/
theorem Body.words_eq : {room : Nat} → {events : List Event} → {nodes : List Node} →
    Body room events nodes → wordsOfList nodes = events.flatMap Event.words
  | _, _, _, .nil => rfl
  | _, _, _, @Body.leaf _ event _ _ _ isLeaf rest => by
      rw [wordsOfList, rest.words_eq, List.flatMap_cons]
      cases event <;> cases isLeaf <;> rfl
  | _, _, _, .loop inside rest => by
      simp [wordsOfList, words, inside.words_eq, rest.words_eq, Event.words, Event.expr?]
  | _, _, _, .choice inside rest => by
      have branches := inside.words_eq
      simp [wordsOfList, words, branches, rest.words_eq, Event.words, Event.expr?]

/-- The words of branches are those of their events, behind the first condition. -/
theorem Branches.words_eq : {room : Nat} → {condition : Expr} → {events : List Event} →
    {branches : List (Expr × List Node)} → {otherwise : Option (List Node)} →
    Branches room condition events branches otherwise →
    wordsOfBranches branches ++ wordsOfOption otherwise =
      condition.words ++ events.flatMap Event.words
  | _, _, _, _, _, .only body => by
      simp [wordsOfBranches, wordsOfOption, body.words_eq]
  | _, _, _, _, _, .elseIf body rest => by
      simp [wordsOfBranches, body.words_eq, rest.words_eq, Event.words, Event.expr?]
  | _, _, _, _, _, .otherwise body last => by
      simp [wordsOfBranches, wordsOfOption, body.words_eq, last.words_eq, Event.words, Event.expr?]

end

/-- The words of a template may come from a text. -/
theorem isSpelled_of_nodes {source : Source} {limits : Limits} {nodes : List Node}
    (read : source.nodes limits = .ok nodes) : ∀ word ∈ wordsOfList nodes, word.IsSpelled := by
  obtain ⟨events, said, body⟩ := Source.nodes_iff_body.mp read
  intro word isWord
  rw [body.words_eq, List.mem_flatMap] at isWord
  obtain ⟨event, isEvent, isWord⟩ := isWord
  exact said.isSpelled event isEvent word isWord

end Node

end TextTemplate
