import TextTemplate.Proofs.Outcome
import TextTemplate.Token.Lexer

/-! # What tokens are like

The numbers, paths and method names that are cut off a text are not arbitrary: numbers are finite
and of a bounded scale, and names consist of the characters that names may have. -/

namespace TextTemplate

/-- Whether a number may be a literal: it is finite, and a decimal's scale is within its bounds. -/
def Numeric.IsLiteral : Numeric → Prop
  | .double x => x.isFinite = true
  | .integer _ => True
  | .decimal d => scaleWithinBounds d = true

/-- What a text spells is a literal, unless it is not finite. -/
theorem Numeric.isLiteral_of_parse? {text : List Char} {value : Numeric}
    (parsed : Numeric.parse? text = some value) (finite : value.isFinite = true) :
    value.IsLiteral := by
  cases value with
  | double x => exact finite
  | integer _ => trivial
  | decimal d =>
      -- A decimal is only given where its scale has been found to be bounded.
      unfold parse? at parsed
      extract_lets signed unsigned at parsed
      split at parsed
      next => cases parsed
      next =>
        split at parsed
        next =>
          obtain ⟨read, -, result⟩ := Option.bind_eq_some_iff.mp parsed
          split at result
          next bounded =>
            cases result
            exact bounded
          next => simp at result
        next =>
          split at parsed
          next => split at parsed <;> simp at parsed
          next => cases parsed

namespace Token

/-! ### Names -/

/-- Whether a text is a name with any number of dots in it. -/
def IsPath : List Char → Prop
  | [] => False
  | c :: rest => isNameStart c = true ∧ ∀ d ∈ rest, isPathChar d = true

/-- What starts a name may stand in it. -/
theorem isPathChar_of_isNameStart {c : Char} (starts : isNameStart c = true) :
    isPathChar c = true := by
  simp only [isNameStart, Bool.or_eq_true] at starts
  simp only [isPathChar, isNameChar, Char.isAlphanum, Bool.or_eq_true]
  exact .inl (starts.imp_left .inl)

/-- The characters of a name are a name. -/
theorem isPath_takeWhile {c : Char} {rest : List Char} (starts : isNameStart c = true) :
    IsPath ((c :: rest).takeWhile isPathChar) := by
  rw [List.takeWhile_cons_of_pos (isPathChar_of_isNameStart starts)]
  exact ⟨starts, List.all_eq_true.mp List.all_takeWhile⟩

end Token

namespace TokenKind

/-- Whether a token may come from a text. Only words whose spelling is not free are restricted. -/
def IsSpelled : TokenKind → Prop
  | .number value => value.IsLiteral
  | .identifier path => Token.IsPath path.toList ∧ path ≠ "true" ∧ path ≠ "false"
  | .method name => Token.IsPath name.toList
  | _ => True

end TokenKind

namespace Token

/-- The token of a name is a word or the name itself. -/
theorem isSpelled_nameToken {name : List Char} (isPath : IsPath name) (rest : List Char) :
    (nameToken name rest).IsSpelled := by
  rw [← String.toList_ofList (l := name)] at isPath
  unfold nameToken
  split
  next => exact isPath
  next =>
    split
    next => trivial
    next notTrue =>
      split
      next => trivial
      next notFalse =>
        refine ⟨isPath, ?_, ?_⟩
        · rintro same
          exact notTrue (by rw [← same, String.toList_ofList])
        · rintro same
          exact notFalse (by rw [← same, String.toList_ofList])

/-- A number that is cut off a text is a literal. -/
theorem isSpelled_lexNumber {text : List Char} {offset count : Nat} {kind : TokenKind}
    (lexed : lexNumber text offset = .ok (kind, count)) : kind.IsSpelled := by
  simp only [lexNumber] at lexed
  split at lexed
  next => cases lexed
  next =>
    split at lexed
    next value parsed =>
      split at lexed
      next finite =>
        cases lexed
        exact Numeric.isLiteral_of_parse? parsed finite
      next => cases lexed
    next => cases lexed

/-- Every token that is cut off a text may come from a text. -/
theorem isSpelled_lexToken {previous : Option TokenKind} {c : Char} {rest : List Char}
    {offset stop count : Nat} {kind : TokenKind}
    (lexed : lexToken previous c rest offset stop = .ok (kind, count)) : kind.IsSpelled := by
  -- The cases are those of `lexToken`, in its order: only numbers and names restrict their tokens.
  unfold lexToken at lexed
  split at lexed
  next => exact isSpelled_lexNumber lexed
  split at lexed
  next =>
    split at lexed
    next => exact isSpelled_lexNumber lexed
    next =>
      cases lexed
      trivial
  split at lexed
  next =>
    unfold lexString at lexed
    split at lexed <;> cases lexed
    trivial
  split at lexed
  next starts =>
    cases lexed
    exact isSpelled_nameToken (isPath_takeWhile starts) _
  repeat
    split at lexed
    next =>
      cases lexed
      trivial
  unfold lexOperator at lexed
  split at lexed
  next =>
    cases lexed
    trivial
  repeat
    split at lexed
    next =>
      cases lexed
      trivial
  cases lexed

/-- All tokens of a text may come from a text. -/
theorem isSpelled_lexFrom {stop : Nat} {previous : Option TokenKind} {offset skip : Nat}
    {text : List Char} {found : List (Located TokenKind)}
    (lexed : lexFrom stop previous offset skip text = .ok found) :
    ∀ token ∈ found, token.item.IsSpelled := by
  -- The cutting goes on character by character, whether one is skipped or starts a token.
  induction text generalizing previous offset skip found with
  | nil =>
      cases lexed
      simp
  | cons c rest ih =>
      unfold lexFrom at lexed
      split at lexed
      next => exact ih lexed
      next =>
        split at lexed
        next => exact ih lexed
        next =>
          split at lexed
          next => cases lexed
          next kind count first =>
            split at lexed
            next => cases lexed
            next others rest =>
              cases lexed
              exact List.forall_mem_cons.mpr ⟨isSpelled_lexToken first, ih rest⟩

end Token

end TextTemplate
