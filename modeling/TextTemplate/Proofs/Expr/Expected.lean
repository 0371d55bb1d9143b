import TextTemplate.Proofs.Checked.Expressions
import TextTemplate.Proofs.Expr.Completeness
import TextTemplate.Proofs.Token.Ranges

/-! # What is expected behind a token

Whether an operand or an operator comes next is decided three times: by the cutting of tokens, which
looks at the token before a minus sign; by the look at the token before a square bracket; and by
what the reading of tokens keeps in its state. All three say the same, after every token. -/

namespace TextTemplate

/-! ### The state after some tokens -/

namespace Expr.Parser.State

variable {state next : State} {tokens : List Token}

/-- What is expected after some tokens depends on the last of them only. -/
theorem expectsOperand_run (ran : state.run tokens = .ok next) :
    next.expectsOperand =
      tokens.getLast?.elim state.expectsOperand (fun last => !last.kind.endsValue) := by
  refine run_keeps (motive := fun read reached => reached.expectsOperand =
    read.getLast?.elim state.expectsOperand fun last => !last.kind.endsValue)
    [] (fun _ steps => ?_) (fun opening _ called => ?_) rfl ran
  · rw [List.getLast?_concat, expectsOperand_step steps]
    rfl
  · rw [expectsOperand_opens called, List.getLast?_append]
    rfl

/-- A run over some tokens is the start of the run over them and others. -/
theorem run_append (ran : state.run tokens = .ok next) (rest : List Token) :
    state.run (tokens ++ rest) = next.run rest := by
  refine run_keeps (motive := fun read reached =>
    ∀ rest, state.run (read ++ rest) = reached.run rest)
    [] (fun before steps rest => ?_) (fun opening before called rest => ?_) (fun _ => rfl) ran rest
  · rw [List.append_assoc, before]
    exact run_step steps
  · rw [List.append_assoc, before, List.cons_append, List.cons_append, State.run, called]
    rfl

end Expr.Parser.State

namespace Token

/-! ### The look at the token before -/

/-- Except behind a method's name, an operand is expected where none has ended. -/
theorem expectsOperand_eq {kind : TokenKind} (noMethod : ∀ name, kind ≠ .method name) :
    expectsOperand (some kind) = !kind.endsValue := by
  cases kind with
  | method name => exact absurd rfl (noMethod name)
  | _ => rfl

/-! ### Minus signs -/

/-- A minus sign is a symbol of its own, whatever follows it. -/
theorem operatorAt?_minus (rest : List Char) : operatorAt? ('-' :: rest) = some .subtract := by
  have unknown (c : Char) (more : List Char) : BinaryOperator.ofSymbol? ('-' :: c :: more) = none := by
    rw [Option.eq_none_iff_forall_ne_some]
    intro operator isSymbol
    have same := Checked.ofSymbol?_eq_some_iff.mp isSymbol
    cases operator <;> simp [BinaryOperator.symbol] at same
  rw [operatorAt?_eq]
  rcases rest with _ | ⟨c, _ | ⟨d, more⟩⟩ <;> simp [unknown] <;> rfl

/-- A number is read as one. -/
theorem number_of_lexNumber {text : List Char} {offset count : Nat} {kind : TokenKind}
    (lexed : lexNumber text offset = .ok (kind, count)) : ∃ value, kind = .number value := by
  simp only [lexNumber] at lexed
  split at lexed
  next => cases lexed
  next =>
    split at lexed
    next value _ =>
      split at lexed
      next =>
        cases lexed
        exact ⟨value, rfl⟩
      next => cases lexed
    next => cases lexed

/-- Whether a token is a number or a negation, which a minus sign may start. -/
def IsSigned (kind : TokenKind) : Prop := kind = .unary .negate ∨ ∃ value, kind = .number value

/-- A minus sign belongs to an operand where one is expected, and is an operator elsewhere. -/
theorem of_lexToken_minus {previous : Option TokenKind} {rest : List Char}
    {offset stop count : Nat} {kind : TokenKind}
    (lexed : lexToken previous '-' rest offset stop = .ok (kind, count)) :
    if expectsOperand previous then IsSigned kind else kind = .operator .subtract := by
  cases expects : expectsOperand previous with
  | false =>
      rw [lexToken_symbol (by decide) (fun _ => expects), lexOperator, operatorAt?_minus] at lexed
      cases lexed
      rfl
  | true =>
      have noNumber : ¬startsWithNumber ('-' :: rest) = true := Bool.false_ne_true
      rw [lexToken, if_neg noNumber, if_pos ⟨rfl, expects⟩] at lexed
      split at lexed
      next => exact .inr (number_of_lexNumber lexed)
      next =>
        cases lexed
        exact .inl rfl

/-! ### Names of methods -/

/-- A name is that of a method when a parenthesis follows it. -/
theorem callFollows_of_nameToken {name rest : List Char} {method : String}
    (isMethod : nameToken name rest = .method method) : callFollows rest = true := by
  unfold nameToken at isMethod
  split at isMethod
  next follows => exact follows
  next =>
    split at isMethod
    next => cases isMethod
    next => split at isMethod <;> cases isMethod

/-- A method's name is cut off where a parenthesis follows it. -/
theorem callFollows_of_lexToken {previous : Option TokenKind} {c : Char} {taken rest : List Char}
    {offset stop : Nat} {method : String}
    (lexed : lexToken previous c (taken ++ rest) offset stop =
      .ok (.method method, taken.length)) : callFollows rest = true := by
  have noNumber {text : List Char} {count : Nat}
      (lexed : lexNumber text offset = .ok (.method method, count)) : callFollows rest = true :=
    nomatch number_of_lexNumber lexed
  -- The cases are those of `lexToken`, in its order; only names give methods.
  obtain ⟨-, lexed⟩ | ⟨-, lexed⟩ := ite_eq_iff.mp lexed
  · exact noNumber lexed
  obtain ⟨-, lexed⟩ | ⟨-, lexed⟩ := ite_eq_iff.mp lexed
  · obtain ⟨-, lexed⟩ | ⟨-, lexed⟩ := ite_eq_iff.mp lexed
    · exact noNumber lexed
    · cases lexed
  obtain ⟨-, lexed⟩ | ⟨-, lexed⟩ := ite_eq_iff.mp lexed
  · unfold lexString at lexed
    split at lexed <;> cases lexed
  obtain ⟨starts, lexed⟩ | ⟨-, lexed⟩ := ite_eq_iff.mp lexed
  · obtain ⟨isMethod, length⟩ := Prod.mk.inj (Except.ok.inj lexed)
    have positive : 0 < ((c :: (taken ++ rest)).takeWhile isPathChar).length := by
      rw [List.takeWhile_cons_of_pos (isPathChar_of_isNameStart starts)]
      exact Nat.succ_pos _
    have behind : ((c :: (taken ++ rest)).takeWhile isPathChar).length = taken.length + 1 := by
      omega
    have follows := callFollows_of_nameToken isMethod
    rwa [behind, List.drop_succ_cons, List.drop_left] at follows
  iterate 6
    obtain ⟨-, lexed⟩ | ⟨-, lexed⟩ := ite_eq_iff.mp lexed
    · cases lexed
  unfold lexOperator at lexed
  repeat
    split at lexed
    next => cases lexed
  cases lexed

/-- Where a parenthesis follows, it is the next token. -/
theorem CutFrom.head_of_callFollows {stop offset : Nat} {previous : Option TokenKind}
    {text : List Char} {found : List (Located TokenKind)}
    (cut : CutFrom stop previous offset text found) (follows : callFollows text = true) :
    found.head?.map (·.item) = some (.opening .round) := by
  induction cut with
  | nil => cases follows
  | separator separates _ ih =>
      rw [callFollows, List.dropWhile_cons_of_pos separates] at follows
      exact ih follows
  | @token previous offset c taken rest kind found noSeparator _ first =>
      have isFirst : c = '(' := by
        rw [callFollows, List.dropWhile_cons_of_neg (by simp [noSeparator])] at follows
        simpa using follows
      subst isFirst
      obtain ⟨rfl, -⟩ := Prod.mk.inj (Except.ok.inj first)
      rfl

/-! ### Tokens among others -/

/-- Each of the tokens of a text is cut off behind those before it. -/
theorem CutFrom.exists_step {stop start : Nat} {previous : Option TokenKind} {text : List Char}
    {before after : List (Located TokenKind)} {token : Located TokenKind}
    (cut : CutFrom stop previous start text (before ++ token :: after)) :
    ∃ front c taken rest, text = front ++ c :: (taken ++ rest) ∧
      token.start = start + byteLength front ∧
      lexToken (before.getLast?.elim previous (some ·.item)) c (taken ++ rest) token.start stop =
        .ok (token.item, taken.length) ∧
      CutFrom stop (some token.item) token.stop rest after := by
  generalize isFound : before ++ token :: after = found at cut
  -- The induction is on the cutting, which uses up the tokens before one by one.
  induction cut generalizing before with
  | nil => simp at isFound
  | @separator _ offset c _ _ _ _ ih =>
      obtain ⟨front, d, taken, rest, rfl, isStart, lexed, behind⟩ := ih isFound
      exact ⟨c :: front, d, taken, rest, rfl, by rw [isStart, byteLength, Nat.add_assoc], lexed,
        behind⟩
  | @token _ offset c taken rest kind found _ _ first behind ih =>
      cases before with
      | nil =>
          cases isFound
          exact ⟨[], c, taken, rest, rfl, rfl, first, behind⟩
      | cons earlier before =>
          rw [List.cons_append] at isFound
          obtain ⟨rfl, others⟩ := List.cons.inj isFound
          obtain ⟨front, d, taken', rest, rfl, isStart, lexed, behind⟩ := ih others
          refine ⟨c :: (taken ++ front), d, taken', rest, by simp, ?_, ?_, behind⟩
          · rw [isStart]
            simp only [byteLength, byteLength_append, Nat.add_assoc]
          · rw [List.getLast?_cons]
            cases isLast : before.getLast? with
            | none => simpa [isLast] using lexed
            | some last => simpa [isLast] using lexed

/-- A method's name is followed by its parenthesis. -/
theorem CutFrom.head_of_method {stop start : Nat} {previous : Option TokenKind} {text : List Char}
    {before after : List (Located TokenKind)} {token : Located TokenKind} {name : String}
    (cut : CutFrom stop previous start text (before ++ token :: after))
    (isMethod : token.item = .method name) :
    after.head?.map (·.item) = some (.opening .round) := by
  obtain ⟨front, c, taken, rest, -, -, lexed, behind⟩ := cut.exists_step
  rw [isMethod] at lexed
  exact behind.head_of_callFollows (callFollows_of_lexToken lexed)

end Token

namespace Source

open Checked (spanned followsValue)
open Expr.Parser

variable {source : Source} {part : List Char} {start stop : Nat}

/-- The tokens before a minus sign decide what it is, and what is expected after them. -/
theorem signed_of_cutFrom {text : List Char} {before after : List (Located TokenKind)}
    {token : Located TokenKind}
    (cut : Token.CutFrom stop none start text (before ++ token :: after))
    (here : cut? source.text start stop = some text)
    (isMinus : byte? source.text token.start = some '-') :
    if before.getLast?.any (·.item.endsValue) then token.item = .operator .subtract
    else Token.IsSigned token.item := by
  obtain ⟨front, c, taken, rest, rfl, isStart, lexed, -⟩ := cut.exists_step
  have isFirst := byte?_of_cut? (cut?_right front here)
  rw [← isStart, isMinus, Option.some.injEq, eq_comm, lead_eq_iff (by decide)] at isFirst
  subst isFirst
  have signed := Token.of_lexToken_minus lexed
  rcases List.eq_nil_or_concat before with rfl | ⟨earlier, last, rfl⟩
  · exact signed
  · -- A method's name in front of the sign would have its parenthesis there instead.
    have noMethod : ∀ name, last.item ≠ .method name := fun name isMethod => by
      rw [List.concat_eq_append, List.append_assoc, List.singleton_append] at cut
      have isBracket := cut.head_of_method isMethod
      rw [List.head?_cons, Option.map_some, Option.some.injEq] at isBracket
      rw [isBracket] at signed
      split at signed
      next => rcases signed with same | ⟨value, same⟩ <;> cases same
      next => cases signed
    rw [List.concat_eq_append, List.getLast?_concat] at signed ⊢
    simp only [Option.elim_some, Token.expectsOperand_eq noMethod] at signed
    cases ends : last.item.endsValue <;> simpa [ends] using signed

/-- What the tokens before say is expected is never in doubt. Whenever some tokens have been read,
the reading of more goes on from there, an operator is expected exactly when the last of them ends
an operand, and so says the look back at a square bracket. In every part of a source that is cut
into tokens, the name of a method is followed by its parenthesis; and a minus sign at the start of a
token belongs to a number or negates exactly when an operand is expected after the tokens before it,
and is an operator exactly when one is not. -/
theorem reads_as_expected :
    (∀ {consumed : List Token} {state : State}, State.initial.run consumed = .ok state →
      (state.expectsOperand = false ↔ ∃ last ∈ consumed.getLast?, last.kind.endsValue = true) ∧
      ∀ rest, State.initial.run (consumed ++ rest) = state.run rest ∧
        followsValue (consumed ++ rest) consumed.length = some (!state.expectsOperand)) ∧
    ∀ {source : Source} {part : List Char} {start stop : Nat} {found : List (Located TokenKind)},
      cut? source.text start stop = some part → Token.lexFrom stop none start 0 part = .ok found →
      source.tokensBetween start stop = .ok (spanned source found) ∧
      ∀ before token after, found = before ++ token :: after →
        (∀ name, token.item = .method name →
          after.head?.map (·.item) = some (.opening .round)) ∧
        (byte? source.text token.start = some '-' →
          ∀ state, State.initial.run (spanned source before) = .ok state →
            (Token.IsSigned token.item ↔ state.expectsOperand = true) ∧
            (token.item = .operator .subtract ↔ state.expectsOperand = false)) := by
  have expected {consumed : List Token} {state : State}
      (ran : State.initial.run consumed = .ok state) :
      state.expectsOperand = !consumed.getLast?.any (·.kind.endsValue) := by
    rw [State.expectsOperand_run ran]
    cases consumed.getLast? <;> rfl
  refine ⟨fun ran => ⟨?_, fun rest => ⟨State.run_append ran rest, ?_⟩⟩,
    fun {source} {_ _ _ _} here lexed => ⟨?_, ?_⟩⟩
  · rw [expected ran, Bool.not_eq_false', Option.any_eq_true]
    rfl
  · rw [Checked.followsValue_eq, expected ran, Bool.not_not]
  · rw [tokensBetween_of_cut? here, Token.lex, lexed]
    rfl
  · rintro before token after rfl
    have cut := Token.cutFrom_of_lexFrom lexed
    refine ⟨fun name isMethod => cut.head_of_method isMethod, fun isMinus state ran => ?_⟩
    have signed := signed_of_cutFrom cut here isMinus
    have same : (spanned source before).getLast?.any (·.kind.endsValue) =
        before.getLast?.any (·.item.endsValue) := by
      rw [spanned, List.getLast?_map]
      cases before.getLast? <;> rfl
    rw [expected ran, same]
    -- Where no operand has ended, the minus sign belongs to what follows it.
    cases ends : before.getLast?.any (·.item.endsValue) with
    | false =>
        rw [ends, if_neg Bool.false_ne_true] at signed
        refine ⟨by simpa using signed, ?_⟩
        rcases signed with isNegation | ⟨value, isNumber⟩ <;> simp [*]
    | true =>
        rw [ends, if_pos rfl] at signed
        simp [signed, Token.IsSigned]

/-- A negation behind a parenthesis, a difference, and a negation behind that. -/
theorem reads_as_expected_of_negations :
    let source : Source := .ofString "page" "\x7b\x7b f (-a) - -b \x7d\x7d"
    let found : List (Located TokenKind) := [⟨.method "f", 3, 4⟩, ⟨.opening .round, 5, 6⟩,
      ⟨.unary .negate, 6, 7⟩, ⟨.identifier "a", 7, 8⟩, ⟨.closing .round, 8, 9⟩,
      ⟨.operator .subtract, 10, 11⟩, ⟨.unary .negate, 12, 13⟩, ⟨.identifier "b", 13, 14⟩]
    (cut? source.text 3 14 = some "f (-a) - -b".toList ∧
      Token.lexFrom 14 none 3 0 "f (-a) - -b".toList = .ok found) ∧
      source.tokensBetween 3 14 = .ok (spanned source found) ∧
      ∃ state, State.initial.run (spanned source (found.take 5)) = .ok state ∧
        state.expectsOperand = false ∧
        State.initial.run (spanned source found) = state.run (spanned source (found.drop 5)) := by
  intro source found
  have here : cut? source.text 3 14 = some "f (-a) - -b".toList := by decide
  have lexed : Token.lexFrom 14 none 3 0 "f (-a) - -b".toList = .ok found := by rfl
  have runs : (State.initial.run (spanned source (found.take 5))).toOption.isSome = true := by
    decide +kernel
  obtain ⟨state, ran⟩ := Option.isSome_iff_exists.mp runs
  rw [toOption_eq_some_iff] at ran
  obtain ⟨consumes, cuts⟩ := reads_as_expected
  obtain ⟨tokens, agrees⟩ := cuts here lexed
  have isMinus : byte? source.text 10 = some '-' := by decide
  have signed := (agrees (found.take 5) ⟨.operator .subtract, 10, 11⟩ (found.drop 6) rfl).2 isMinus
    state ran
  exact ⟨⟨here, lexed⟩, tokens, state, ran, signed.2.mp rfl, ((consumes ran).2 _).1⟩

end Source

end TextTemplate
