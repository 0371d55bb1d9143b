import TextTemplate.Proofs.Source.Places
import TextTemplate.Proofs.Token.Ranges
import TextTemplate.Proofs.Token.Spans

/-! # What tokens leave over

Every token of a part of a text takes characters of it, and no character is taken twice. What none of
them takes are the separators between them, so nothing is lost. -/

namespace TextTemplate

/-- Stretches in order end before any later one of them starts. -/
theorem Span.InOrder.pairwise {p q : Position} {spans : List Span} (ordered : InOrder p q spans) :
    spans.Pairwise fun first second => first.stop ≤ second.start := by
  induction spans generalizing p with
  | nil => exact .nil
  | cons span rest ih =>
      obtain ⟨-, -, others⟩ := ordered
      exact List.pairwise_cons.mpr ⟨fun other isOther => (others.bounds other isOther).1, ih others⟩

namespace Token

variable {source : Source} {text part before after : List Char} {start stop : Nat} {c : Char}

/-- Every character of a text that is cut into tokens is a separator, or one of the tokens takes
it. -/
theorem CutFrom.separator_or_taken {previous : Option TokenKind} {found : List (Located TokenKind)}
    (cut : CutFrom stop previous start text found) (isText : text = before ++ c :: after) :
    isSeparator c = true ∨ ∃ token ∈ found, token.start ≤ start + byteLength before ∧
      start + byteLength before + c.utf8Size ≤ token.stop := by
  induction cut generalizing before with
  | nil => simp at isText
  | @separator _ start first rest _ separates _ ih =>
      rcases List.cons_eq_append_iff.mp isText with ⟨rfl, same⟩ | ⟨before, rfl, isRest⟩
      · obtain ⟨rfl, -⟩ := List.cons.inj same
        exact .inl separates
      · rw [byteLength, ← Nat.add_assoc]
        exact ih isRest
  | @token _ start first taken rest kind found _ _ _ _ ih =>
      rw [← List.cons_append] at isText
      rcases List.append_eq_append_iff.mp isText with ⟨before, rfl, isRest⟩ | ⟨inside, isTaken, same⟩
      · -- The character stands behind the token, and so behind what the token takes.
        rw [byteLength_append, ← Nat.add_assoc]
        rcases ih isRest with separates | ⟨token, isToken, covers⟩
        · exact .inl separates
        · exact .inr ⟨token, .tail _ isToken, covers⟩
      · cases inside with
        | nil =>
            rw [List.append_nil] at isTaken
            subst isTaken
            rcases @ih [] same.symm with separates | ⟨token, isToken, covers⟩
            · exact .inl separates
            · exact .inr ⟨token, .tail _ isToken, by simpa [byteLength] using covers⟩
        | cons other inside =>
            obtain ⟨rfl, -⟩ := List.cons.inj same
            refine .inr ⟨_, .head _, Nat.le_add_right _ _, ?_⟩
            have size := congrArg byteLength isTaken
            simp only [byteLength_append, byteLength] at size ⊢
            omega

/-- Every token of a part of a short source has a span that is not empty. -/
theorem CutFrom.span_lt {previous : Option TokenKind} {found : List (Located TokenKind)}
    (cut : CutFrom stop previous start text found) (short : source.size < 2 ^ 32 - 1)
    (here : cut? source.text start stop = some text) :
    ∀ token ∈ found, (token.span source).start < (token.span source).stop := by
  intro token isToken
  obtain ⟨taken, nonempty, isTaken⟩ := cut.exists_taken here token isToken
  obtain ⟨isStart, isStop⟩ := isEdge_of_cut? isTaken
  have positive := Nat.pos_of_ne_zero (mt byteLength_eq_zero_iff.mp nonempty)
  have lt : token.start < token.stop := by
    rw [stop_of_cut? isTaken]
    omega
  rw [Located.span, Source.span_of_le (Nat.le_of_lt lt)]
  exact Source.position_strictMonoOn short isStart isStop lt

/-- Every character of a part of a short source is a separator, or stands in the span of a token. -/
theorem CutFrom.separator_or_contained {previous : Option TokenKind}
    {found : List (Located TokenKind)} (cut : CutFrom stop previous start text found)
    (short : source.size < 2 ^ 32 - 1) (here : cut? source.text start stop = some text)
    (isText : text = before ++ c :: after) :
    isSeparator c = true ∨ ∃ token ∈ found, (token.span source).Contains
      (source.span (start + byteLength before) (start + byteLength before + c.utf8Size)) := by
  refine (cut.separator_or_taken isText).imp_right ?_
  rintro ⟨token, isToken, first, last⟩
  refine ⟨token, isToken, ?_⟩
  -- The character and the token stand between edges, so positions compare as offsets do.
  have increasing := (Source.position_strictMonoOn short).monotoneOn
  obtain ⟨taken, -, isTaken⟩ := cut.exists_taken here token isToken
  obtain ⟨isStart, isStop⟩ := isEdge_of_cut? isTaken
  rw [isText] at here
  obtain ⟨isFirst, isLast⟩ := isEdge_of_cut? (cut?_left [c] (cut?_right before here))
  rw [byteLength, byteLength, Nat.add_zero] at isLast
  rw [Located.span, Source.span_of_le (by omega), Source.span_of_le (Nat.le_add_right _ _)]
  exact ⟨increasing isStart isFirst first, increasing isLast isStop last⟩

end Token

namespace Source

variable {source : Source} {part : List Char} {start stop : Nat} {tokens : List Token}

/-- The tokens of a part of a short source, which are those that are found by offsets, take at least
one character each, and stand in the part one after the other without overlap. Every character of
the part is a separator, or one of the tokens covers it. -/
theorem tokens_cover (short : source.size < 2 ^ 32 - 1)
    (here : cut? source.text start stop = some part)
    (lexed : source.tokensBetween start stop = .ok tokens) :
    (∀ overflow, Checked.lex overflow source start stop = pure tokens) ∧
      (∀ token ∈ tokens, token.span.start < token.span.stop) ∧
      tokens.Pairwise (fun first second => first.span.stop ≤ second.span.start) ∧
      (∀ token ∈ tokens, (source.span start stop).Contains token.span) ∧
      ∀ before c after, part = before ++ c :: after → isSeparator c = true ∨
        ∃ token ∈ tokens, token.span.Contains
          (source.span (start + byteLength before) (start + byteLength before + c.utf8Size)) := by
  rw [tokensBetween_of_cut? here] at lexed
  have ordered := Token.inOrder_of_lex short here lexed
  have checked (overflow : Checked.Overflow) :
      Checked.lex overflow source start stop = pure tokens := by
    have : overflow.Fits source := ⟨fun _ => short⟩
    rw [Checked.lex_eq here, lexed, Checked.found_ok]
  unfold Token.lex at lexed
  split at lexed
  next found cut =>
    cases lexed
    -- All about places comes from the cutting of characters, which knows what is between the
    -- tokens.
    replace cut := Token.cutFrom_of_lexFrom cut
    refine ⟨checked, List.forall_mem_map.mpr (cut.span_lt short here),
      List.pairwise_map.mp ordered.pairwise, ?_, ?_⟩
    · intro token isToken
      rw [span_of_le (stop_of_cut? here ▸ Nat.le_add_right _ _)]
      exact ordered.bounds _ (List.mem_map_of_mem isToken)
    · intro before c after isPart
      refine (cut.separator_or_contained short here isPart).imp_right ?_
      rintro ⟨token, isToken, contains⟩
      exact ⟨⟨token.item, token.span source⟩, List.mem_map_of_mem isToken, contains⟩
  next => cases lexed

/-- A string with separators and a character of several bytes in it, behind a number with an
exponent. -/
theorem tokens_cover_of_string :
    let source : Source := .ofString "page" "ü \x7b\x7b 1.5e3\n+ \"é \\\" x\" \x7d\x7d"
    let part := "1.5e3\n+ \"é \\\" x\"".toList
    source.size < 2 ^ 32 - 1 ∧ cut? source.text 6 23 = some part ∧
      ∃ tokens, source.tokensBetween 6 23 = .ok tokens ∧
        tokens.Pairwise (fun first second => first.span.stop ≤ second.span.start) ∧
        ∀ before c after, part = before ++ c :: after → isSeparator c = true ∨
          ∃ token ∈ tokens, token.span.Contains
            (source.span (6 + byteLength before) (6 + byteLength before + c.utf8Size)) := by
  intro source part
  have short : source.size < 2 ^ 32 - 1 := by decide
  have here : cut? source.text 6 23 = some part := by decide
  have lexes : (source.tokensBetween 6 23).toOption.isSome = true := by decide +kernel
  obtain ⟨tokens, lexed⟩ := Option.isSome_iff_exists.mp lexes
  rw [toOption_eq_some_iff] at lexed
  obtain ⟨-, -, apart, -, covers⟩ := tokens_cover short here lexed
  exact ⟨short, here, tokens, lexed, apart, covers⟩

end Source

end TextTemplate
