import TextTemplate.Expr.Printer
import TextTemplate.Piece
import TextTemplate.Token.Lexer

/-! # Strings are read back

In the text of a string every quote and every backslash of the string stands behind a backslash. So
the closing quote is the first one that does not, for tokens and for the closers of tags alike, and
taking the escapes back gives the string. -/

namespace TextTemplate

/-- Whether quotes and backslashes stand behind backslashes only. -/
inductive Escaped : List Char → Prop where
  | nil : Escaped []
  /-- A character that needs no backslash. -/
  | plain {c : Char} {rest : List Char} :
      c ≠ '"' → c ≠ '\\' → Escaped rest → Escaped (c :: rest)
  /-- A backslash and the character that it takes with it. -/
  | pair (c : Char) {rest : List Char} : Escaped rest → Escaped ('\\' :: c :: rest)

/-- Escaped texts can be written one after the other. -/
theorem Escaped.append {left right : List Char} (first : Escaped left) (second : Escaped right) :
    Escaped (left ++ right) := by
  induction first with
  | nil => exact second
  | plain notQuote notBackslash _ ih => exact .plain notQuote notBackslash ih
  | pair c _ ih => exact .pair c ih

namespace Expr

/-- The digits of a character's number are the ones that give the number back. -/
theorem readHex?_hexDigits : ∀ code < 256,
    Digits.readHex? ['0', '0', hexDigit (code / 16), hexDigit code] = some code ∧
      hexDigit code ≠ '"' ∧ hexDigit code ≠ '\\' ∧
      hexDigit (code / 16) ≠ '"' ∧ hexDigit (code / 16) ≠ '\\' := by
  decide +kernel

/-- Control characters have codes of two hexadecimal digits. -/
theorem code_of_isControl {c : Char} (control : isControl c = true) : c.toNat < 256 := by
  simp only [isControl, Bool.or_eq_true, Bool.and_eq_true, decide_eq_true_eq] at control
  omega

/-- A character is escaped if it has to be. -/
theorem escaped_escape (c : Char) : Escaped (escape c) := by
  unfold escape
  split
  next => exact .pair _ .nil
  next notQuote =>
    split
    next => exact .pair _ .nil
    next notBackslash =>
      iterate 3
        split
        next => exact .pair _ .nil
      split
      next control =>
        obtain ⟨-, first, second, third, fourth⟩ :=
          readHex?_hexDigits _ (code_of_isControl control)
        exact .pair _ (.plain (by decide) (by decide) (.plain (by decide) (by decide)
          (.plain third fourth (.plain first second .nil))))
      next => exact .plain notQuote notBackslash .nil

/-- So all characters of a text are. -/
theorem escaped_flatMap (text : List Char) : Escaped (text.flatMap escape) := by
  induction text with
  | nil => exact .nil
  | cons c rest ih =>
      rw [List.flatMap_cons]
      exact (escaped_escape c).append ih

end Expr

/-! ### Closing quotes -/

/-- The text of a string ends at the quote behind it. -/
theorem Escaped.closingQuote? {text rest : List Char} (escaped : Escaped text) {run : Nat}
    (even : run % 2 = 0) : Token.closingQuote? '"' run (text ++ '"' :: rest) = some text.length := by
  induction escaped generalizing run with
  | nil => simp [Token.closingQuote?, even]
  | plain notQuote notBackslash _ ih =>
      rw [List.cons_append, Token.closingQuote?, if_neg (fun both => notQuote both.1),
        if_neg notBackslash, ih (Nat.zero_mod 2)]
      rfl
  | pair c _ ih =>
      have odd : (run + 1) % 2 ≠ 0 := by omega
      have after : (if c = '\\' then run + 1 + 1 else 0) % 2 = 0 := by
        split <;> omega
      rw [List.cons_append, Token.closingQuote?, if_neg (fun both => absurd both.1 (by decide)),
        if_pos rfl, List.cons_append, Token.closingQuote?, if_neg (fun both => odd both.2), ih after]
      rfl

/-- A closer is looked for only behind the quote that ends a string. -/
theorem Escaped.unquotedCloser? {text : List Char} (escaped : Escaped text) (kind : TagKind)
    (rest : List Char) :
    kind.unquotedCloser? (some '"') (text ++ '"' :: rest) =
      (kind.unquotedCloser? none rest).map (· + (text.length + 1)) := by
  induction escaped with
  | nil =>
      rw [List.nil_append, TagKind.unquotedCloser?]
      · simp
      · exact fun _ _ same => absurd same (by decide)
  | plain notQuote notBackslash _ ih =>
      rw [List.cons_append, TagKind.unquotedCloser?, if_neg notQuote, ih, Option.map_map]
      · rfl
      · exact fun _ _ same => absurd same notBackslash
  | pair c _ ih =>
      rw [List.cons_append, List.cons_append, TagKind.unquotedCloser?, ih, Option.map_map]
      rfl

/-! ### Escapes -/

/-- Taking back the escapes of a character gives the character. -/
theorem Token.decodeEscapes_escape (c : Char) (rest : List Char) :
    decodeEscapes (Expr.escape c ++ rest) = c :: decodeEscapes rest := by
  unfold Expr.escape
  by_cases isQuote : c = '"'
  · subst isQuote
    rfl
  by_cases isBackslash : c = '\\'
  · subst isBackslash
    rfl
  by_cases isFeed : c = '\n'
  · subst isFeed
    rfl
  by_cases isTab : c = '\t'
  · subst isTab
    rfl
  by_cases isReturn : c = '\r'
  · subst isReturn
    rfl
  rw [if_neg isQuote, if_neg isBackslash, if_neg isFeed, if_neg isTab, if_neg isReturn]
  split
  next control =>
    -- A control character is written by its code, and its code is read back.
    have code := (Expr.readHex?_hexDigits _ (Expr.code_of_isControl control)).1
    have valid : c.toNat.isValidChar := c.valid
    simp only [List.cons_append, List.nil_append, decodeEscapes, code, charOfCode]
    rw [if_pos valid, Char.ofNat_toNat]
  next =>
    rw [List.singleton_append, decodeEscapes]
    all_goals
      intros
      exact isBackslash ‹_›

/-- Taking the escapes of a string back gives the string. -/
theorem Token.decodeEscapes_flatMap (text : List Char) :
    decodeEscapes (text.flatMap Expr.escape) = text := by
  induction text with
  | nil => rfl
  | cons c rest ih => rw [List.flatMap_cons, decodeEscapes_escape, ih]

end TextTemplate
