import TextTemplate.Proofs.Node.Statements
import TextTemplate.Proofs.Outcome
import TextTemplate.Proofs.Token.Taken

/-! # Texts that are cut into tokens

Which tokens a text is cut into does not depend on its place in a source, nor on the separators
around it: without them the text starts and ends visibly. -/

namespace TextTemplate.Token

/-- Whether a text behind a token is cut into tokens of some kinds, wherever it stands. -/
inductive Cuts : Option TokenKind → List Char → List TokenKind → Prop where
  | nil {previous : Option TokenKind} : Cuts previous [] []
  | separator {previous : Option TokenKind} {c : Char} {rest : List Char}
      {kinds : List TokenKind} :
      isSeparator c = true → Cuts previous rest kinds → Cuts previous (c :: rest) kinds
  | token {previous : Option TokenKind} {c : Char} {taken rest : List Char} {kind : TokenKind}
      {kinds : List TokenKind} :
      isSeparator c = false → Taken (c :: taken) →
      (∀ offset stop, lexToken previous c (taken ++ rest) offset stop = .ok (kind, taken.length)) →
      Cuts (some kind) rest kinds → Cuts previous (c :: (taken ++ rest)) (kind :: kinds)

variable {previous : Option TokenKind} {text : List Char} {kinds : List TokenKind}

/-- A token is the same at another place and without the separators behind the text. -/
theorem lexToken_moved {c : Char} {rest blanks : List Char} {offset stop : Nat}
    {result : TokenKind × Nat}
    (lexed : lexToken previous c (rest ++ blanks) offset stop = .ok result)
    (areSeparators : ∀ c ∈ blanks, isSeparator c = true) (offset' stop' : Nat) :
    lexToken previous c rest offset' stop' = .ok result := by
  rw [← toOption_eq_some_iff] at lexed ⊢
  rw [← lexed]
  exact ((endsOperand_of_separators areSeparators).lexToken_append previous c rest _ _ _ _
    fun isQuote => lexString_append_blanks areSeparators isQuote rest _ _ _ _).symm

/-- Where a text stands does not matter for the tokens that it is cut into. -/
theorem CutFrom.cuts {stop offset : Nat} {found : List (Located TokenKind)}
    (cut : CutFrom stop previous offset text found) :
    Cuts previous text (found.map (·.item)) := by
  induction cut with
  | nil => exact .nil
  | separator separates _ ih => exact .separator separates ih
  | @token _ _ _ taken rest _ _ noSeparator isTaken first _ ih =>
      refine .token noSeparator isTaken (fun offset' stop' => ?_) ih
      rw [← List.append_nil (taken ++ rest)] at first
      exact lexToken_moved first (by simp) offset' stop'

/-- A text that is cut into tokens is so at any place in any source. -/
theorem Cuts.lexFrom (cuts : Cuts previous text kinds) (stop offset : Nat) :
    ∃ found, lexFrom stop previous offset 0 text = .ok found ∧ found.map (·.item) = kinds := by
  induction cuts generalizing offset with
  | nil => exact ⟨[], rfl, rfl⟩
  | @separator _ c _ _ separates _ ih =>
      obtain ⟨found, lexed, items⟩ := ih (offset + c.utf8Size)
      exact ⟨found, by rw [Token.lexFrom, if_pos separates, lexed], items⟩
  | @token _ c taken rest kind kinds noSeparator _ first _ ih =>
      obtain ⟨found, lexed, items⟩ := ih (offset + c.utf8Size + byteLength taken)
      refine ⟨⟨kind, offset, offset + byteLength (c :: (taken ++ rest).take taken.length)⟩ :: found, ?_,
        congrArg (kind :: ·) items⟩
      rw [Token.lexFrom]
      simp only [noSeparator, Bool.false_eq_true, if_false, first, lexFrom_skip, lexed]

/-! ### Texts one behind the other -/

/-- What is cut off where an operand is expected or not is a token of a text. -/
theorem IsCut.cuts {expecting : Bool} {token rest : List Char} {kind : TokenKind}
    (isCut : IsCut expecting token rest kind) (expects : expectsOperand previous = expecting)
    (behind : Cuts (some kind) rest kinds) : Cuts previous (token ++ rest) (kind :: kinds) := by
  obtain ⟨c, more, rfl, noSeparator, cut⟩ := isCut
  obtain ⟨taken, others, same, length, isTaken⟩ := taken_of_lexToken (cut previous 0 0 expects)
  obtain ⟨rfl, rfl⟩ := List.append_inj same length.symm
  exact .token noSeparator isTaken (fun offset stop => cut previous offset stop expects) behind

/-- Of the token before, all that counts is whether it expects an operand and closes a bracket. -/
theorem Cuts.of_previous {other : Option TokenKind} (cuts : Cuts previous text kinds)
    (expects : expectsOperand other = expectsOperand previous)
    (closes : isClosing other = isClosing previous) : Cuts other text kinds := by
  induction cuts with
  | nil => exact .nil
  | separator separates _ ih => exact .separator separates (ih expects closes)
  | @token _ c taken rest kind _ noSeparator isTaken first behind _ =>
      refine .token noSeparator isTaken (fun offset stop => ?_) behind
      rw [← first offset stop, lexToken, lexToken, expects, closes]

/-- A token is the same in front of what ends an operand. -/
theorem lexToken_append {c : Char} {rest after : List Char} {offset stop : Nat}
    {result : TokenKind × Nat} (lexed : lexToken previous c rest offset stop = .ok result)
    (ends : EndsOperand after) :
    lexToken previous c (rest ++ after) offset stop = .ok result := by
  rw [← toOption_eq_some_iff] at lexed ⊢
  rw [← lexed]
  refine ends.lexToken_append previous c rest _ _ _ _ fun isQuote => ?_
  have isString : lexToken previous c rest offset stop = lexString c rest offset stop := by
    rcases isQuote with rfl | rfl <;> rfl
  rw [isString, toOption_eq_some_iff] at lexed
  rw [lexed, lexString_append lexed]

/-- A text in front of what ends an operand is cut as it is alone. -/
theorem Cuts.append {after : List Char} {others : List TokenKind} (cuts : Cuts previous text kinds)
    (ends : EndsOperand after) (behind : ∀ last, Cuts last after others) :
    Cuts previous (text ++ after) (kinds ++ others) := by
  induction cuts with
  | nil => exact behind _
  | separator separates _ ih => exact .separator separates ih
  | @token _ c taken rest _ _ noSeparator isTaken first _ ih =>
      have whole (offset stop : Nat) := lexToken_append (first offset stop) ends
      simp only [List.append_assoc] at whole
      rw [List.cons_append, List.append_assoc]
      exact .token noSeparator isTaken whole ih

/-! ### Ends of texts -/

/-- Separators are blank. -/
theorem isBlank_of_isSeparator {c : Char} (separates : isSeparator c = true) : isBlank c = true := by
  rcases of_isSeparator separates with rfl | rfl | rfl | rfl | rfl <;> decide

/-- Quotes are visible. -/
theorem isVisible_of_isQuote {c : Char} (isQuote : c = '"' ∨ c = '\'') : IsVisible c := by
  rcases isQuote with rfl | rfl <;> decide

/-- A token starts visibly. -/
theorem Taken.head {c : Char} {taken : List Char} (isTaken : Taken (c :: taken)) :
    IsSolid c ∨ c = '"' ∨ c = '\'' := by
  cases isTaken with
  | solid _ solid => exact .inl (solid c (.head _))
  | quoted isQuote => exact .inr isQuote

/-- So no token starts with a blank. -/
theorem Taken.visible {c : Char} {taken : List Char} (isTaken : Taken (c :: taken)) :
    IsVisible c :=
  isTaken.head.elim (·.visible) isVisible_of_isQuote

/-- A token ends visibly. -/
theorem Taken.endsVisibly (isTaken : Taken text) : Expr.EndsVisibly text := by
  cases isTaken with
  | solid nonempty solid =>
      exact Expr.endsVisibly_of_forall nonempty fun c isMember => (solid c isMember).visible
  | @quoted quote inside isQuote =>
      exact ⟨quote :: inside, quote, rfl, isVisible_of_isQuote isQuote⟩

/-- The separators in front of a text do not matter. -/
theorem Cuts.exists_start (cuts : Cuts previous text kinds) :
    ∃ before rest, text = before ++ rest ∧ (∀ c ∈ before, isSeparator c = true) ∧
      Cuts previous rest kinds ∧ (kinds ≠ [] → ∃ c more, rest = c :: more ∧ IsVisible c) := by
  induction cuts with
  | nil => exact ⟨[], [], rfl, nofun, .nil, by simp⟩
  | @separator _ c _ _ separates _ ih =>
      obtain ⟨before, rest, rfl, areSeparators, cuts, starts⟩ := ih
      exact ⟨c :: before, rest, rfl, List.forall_mem_cons.mpr ⟨separates, areSeparators⟩, cuts, starts⟩
  | token noSeparator isTaken first cuts _ =>
      exact ⟨[], _, rfl, nofun, .token noSeparator isTaken first cuts, fun _ =>
        ⟨_, _, rfl, isTaken.visible⟩⟩

/-- The separators behind a text do not matter. -/
theorem Cuts.exists_stop (cuts : Cuts previous text kinds) :
    ∃ rest after, text = rest ++ after ∧ (∀ c ∈ after, isSeparator c = true) ∧
      Cuts previous rest kinds ∧ (rest = [] ∨ Expr.EndsVisibly rest) := by
  induction cuts with
  | nil => exact ⟨[], [], rfl, nofun, .nil, .inl rfl⟩
  | @separator _ c _ _ separates _ ih =>
      obtain ⟨rest, after, rfl, areSeparators, cuts, rfl | ends⟩ := ih
      · exact ⟨[], c :: after, rfl, List.forall_mem_cons.mpr ⟨separates, areSeparators⟩, by
          cases cuts; exact .nil, .inl rfl⟩
      · exact ⟨c :: rest, after, rfl, areSeparators, .separator separates cuts,
          .inr (ends.append [c])⟩
  | @token previous c taken _ kind kinds noSeparator isTaken first _ ih =>
      obtain ⟨rest, after, rfl, areSeparators, cuts, ends⟩ := ih
      -- The last token is the same when the separators behind it are gone.
      have alone (offset stop : Nat) :
          lexToken previous c (taken ++ rest) offset stop = .ok (kind, taken.length) := by
        have lexed := first offset stop
        rw [← List.append_assoc] at lexed
        exact lexToken_moved lexed areSeparators offset stop
      refine ⟨c :: (taken ++ rest), after, by simp, areSeparators,
        .token noSeparator isTaken alone cuts, .inr ?_⟩
      rcases ends with rfl | ends
      · rw [List.append_nil]
        exact isTaken.endsVisibly
      · exact ends.append (c :: taken)

/-- A text with tokens in it has a trimmed text between separators, with the same tokens. -/
theorem Cuts.exists_trimmed (cuts : Cuts previous text kinds) (nonempty : kinds ≠ []) :
    ∃ before middle after, text = before ++ (middle ++ after) ∧
      (∀ c ∈ before, isSeparator c = true) ∧ (∀ c ∈ after, isSeparator c = true) ∧
      Cuts previous middle kinds ∧ IsTrimmed middle := by
  obtain ⟨rest, after, rfl, areAfter, cutsRest, ends⟩ := cuts.exists_stop
  obtain ⟨before, middle, rfl, areBefore, cutsMiddle, starts⟩ := cutsRest.exists_start
  have head := starts nonempty
  refine ⟨before, middle, after, List.append_assoc .., areBefore, areAfter, cutsMiddle, head, ?_⟩
  obtain ⟨c, more, rfl, visible⟩ := head
  rcases ends with empty | ⟨front, last, same, visibleLast⟩
  · simp at empty
  · -- The last character of the whole text is the last one of what starts visibly in it.
    have last : (c :: more).getLast? = some last := by
      have whole := congrArg List.getLast? same
      simpa using whole
    obtain ⟨init, same⟩ := List.getLast?_eq_some_iff.mp last
    exact ⟨init, _, same, visibleLast⟩

end TextTemplate.Token
