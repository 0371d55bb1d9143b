import TextTemplate.Proofs.Source.Marked
import TextTemplate.Proofs.Token.Ranges

/-! # Where faults of tokens are found

A text that cannot be cut into tokens has its fault at characters of its own: at the number that
cannot be read or at the character behind it, from the quote that is not closed to the end, or at
the character that starts no token. -/

namespace TextTemplate.Token

open Source (finds_error finds_ite finds_ok)

variable {source : Source} {body rest : List Char} {start stop offset : Nat} {c : Char}

/-! ### One token -/

/-- A number that cannot be read is part of the text, and so is the start of a name behind it. -/
theorem finds_lexNumber (here : cut? source.text offset stop = some body) :
    source.Finds (lexNumber body offset) := by
  have solid := startsSolid_numberPart body
  rw [lexNumber]
  generalize numberPart body = number at solid
  obtain ⟨spelling, count⟩ := number
  have lies (cause : Cause) : (⟨cause, offset, offset + count⟩ : Located Cause).LiesIn source := by
    rw [← List.take_append_drop count body] at here
    have taken := cut?_left _ here
    rw [Checked.byteLength_take solid] at taken
    exact ⟨_, taken⟩
  dsimp only
  split
  next c isOther =>
    obtain ⟨isHead, isName⟩ := Option.filter_eq_some_iff.mp isOther
    have behind := Checked.cut?_drop solid here
    rw [List.eq_cons_of_mem_head? isHead] at behind
    -- The characters of names are bytes of their own.
    have taken := cut?_left [c] behind
    rw [byteLength, byteLength, utf8Size_ascii (isNarrow_isNameChar c isName)] at taken
    exact finds_error ⟨_, taken⟩
  next =>
    split
    next => exact finds_ite (finds_ok _) (finds_error (lies _))
    next => exact finds_error (lies _)

/-- A string that is not closed is the rest of the text. -/
theorem finds_lexString (here : cut? source.text offset stop = some body) (quote : Char) :
    source.Finds (lexString quote rest offset stop) := by
  rw [lexString]
  split
  next => exact finds_ok _
  next => exact finds_error ⟨_, here⟩

/-- A character that starts no operator is part of the text. -/
theorem finds_lexOperator (here : cut? source.text offset stop = some (c :: rest)) :
    source.Finds (lexOperator c rest offset) := by
  rw [lexOperator]
  split
  next => exact finds_ok _
  next => exact finds_ite (finds_ok _) (finds_ite (finds_ok _) (finds_error ⟨_, cut?_left [c] here⟩))

/-- The fault of one token is found at a part of the text. -/
theorem finds_lexToken (previous : Option TokenKind)
    (here : cut? source.text offset stop = some (c :: rest)) :
    source.Finds (lexToken previous c rest offset stop) := by
  have number := finds_lexNumber here
  rw [lexToken]
  refine finds_ite number (finds_ite (finds_ite number (finds_ok _)) ?_)
  refine finds_ite (finds_lexString here c) ?_
  -- Names, keys, brackets and commas are tokens whatever follows them.
  iterate 7 refine finds_ite (finds_ok _) ?_
  exact finds_lexOperator here

/-! ### All tokens -/

/-- The first fault of a text is found at a part of it. -/
theorem finds_lexFrom (previous : Option TokenKind) (skip : Nat)
    (here : cut? source.text offset stop = some body) :
    source.Finds (lexFrom stop previous offset skip body) := by
  induction body generalizing previous offset skip with
  | nil => exact finds_ok _
  | cons c rest ih =>
      have behind := cut?_next here
      cases skip with
      | succ skip => exact ih previous skip behind
      | zero =>
          rw [lexFrom]
          refine finds_ite (ih previous 0 behind) ?_
          split
          next first => exact finds_error (finds_lexToken previous here _ first)
          next kind count _ =>
            split
            next others => exact finds_error (ih (some kind) count behind _ others)
            next => exact finds_ok _

/-- A part of a source has marked tokens, or a marked fault. -/
theorem locates_lex (here : cut? source.text start stop = some body) :
    source.Locates (fun tokens => ∀ token ∈ tokens, source.Marks token.span)
      (lex source body start stop) := by
  rw [lex]
  cases lexed : lexFrom stop none start 0 body with
  | error fault => exact (finds_lexFrom none 0 here fault lexed).marks
  | ok found =>
      intro token isToken
      obtain ⟨token, isFound, rfl⟩ := List.mem_map.mp isToken
      obtain ⟨taken, -, isTaken⟩ := (cutFrom_of_lexFrom lexed).exists_taken here token isFound
      exact Source.marks_of_cut? isTaken

end TextTemplate.Token
