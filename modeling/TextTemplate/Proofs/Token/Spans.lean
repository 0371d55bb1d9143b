import TextTemplate.Proofs.Source.Positions
import TextTemplate.Proofs.Token.Lexed
import TextTemplate.Proofs.Token.Taken

/-! # Spans of tokens

The tokens of a part of a source follow one another in it, each from the edge of a character to the
edge of another. -/

namespace TextTemplate.Token

variable {source : Source} {text : List Char} {start stop : Nat}

/-- What is cut off a part of a short source stands in it one after the other. -/
theorem CutFrom.inOrder {previous : Option TokenKind} {found : List (Located TokenKind)}
    (cut : CutFrom stop previous start text found) (short : source.size < 2 ^ 32 - 1)
    (here : cut? source.text start stop = some text) :
    Span.InOrder (source.position start) (source.position stop) (found.map (·.span source)) := by
  induction cut with
  | nil => exact Source.position_le_of_cut? short here
  | @separator _ _ c _ _ _ _ ih =>
      exact (ih (cut?_next here)).mono_left
        (Source.position_le_of_cut? short (cut?_left [c] here))
  | @token _ start c taken rest _ _ _ _ _ _ ih =>
      have token := cut?_left (c :: taken) here
      rw [List.map_cons, Located.span, Source.span_of_le (Nat.le_add_right _ _)]
      exact ⟨le_refl _, Source.position_le_of_cut? short token, ih (cut?_right (c :: taken) here)⟩

/-- The tokens of a part of a short source stand in it one after the other. -/
theorem inOrder_of_lex {tokens : List Token} (short : source.size < 2 ^ 32 - 1)
    (here : cut? source.text start stop = some text)
    (lexed : lex source text start stop = .ok tokens) :
    Span.InOrder (source.position start) (source.position stop) (tokens.map Token.span) := by
  unfold lex at lexed
  split at lexed
  next found cut =>
    cases lexed
    rw [List.map_map]
    exact (cutFrom_of_lexFrom cut).inOrder short here
  next => cases lexed

end TextTemplate.Token
