import TextTemplate.Proofs.Checked.Lexer
import TextTemplate.Proofs.Token.Lexed

/-! # Tokens of a part of a text

A part of a text is cut into the same tokens as if it stood alone. Every token has its offsets in
the part moved by the one where the part starts, and so does a fault; nothing in front of the part
or behind it is looked at. -/

namespace TextTemplate

namespace Located

/-- What is found in a part, at its offsets in the text where the part starts `places` bytes on. -/
def shift {α : Type} (places : Nat) (found : Located α) : Located α :=
  ⟨found.item, places + found.start, places + found.stop⟩

end Located

namespace Token

variable {source : Source} {part : List Char} {start stop : Nat}

/-! ### Cutting at another place -/

section Places

variable (places : Nat)

/-- A number that stands further on is the same number, and has its fault further on. -/
theorem lexNumber_shift (text : List Char) (offset : Nat) :
    lexNumber text (places + offset) = (lexNumber text offset).mapError (.shift places) := by
  simp only [lexNumber]
  split
  next => simp [Except.mapError, Located.shift, Nat.add_assoc]
  next =>
    split
    next =>
      split
      next => rfl
      next => simp [Except.mapError, Located.shift, Nat.add_assoc]
    next => simp [Except.mapError, Located.shift, Nat.add_assoc]

/-- So is a string. -/
theorem lexString_shift (quote : Char) (rest : List Char) (offset stop : Nat) :
    lexString quote rest (places + offset) (places + stop) =
      (lexString quote rest offset stop).mapError (.shift places) := by
  rw [lexString, lexString]
  split <;> rfl

/-- So is an operator. -/
theorem lexOperator_shift (c : Char) (rest : List Char) (offset : Nat) :
    lexOperator c rest (places + offset) =
      (lexOperator c rest offset).mapError (.shift places) := by
  rw [lexOperator, lexOperator]
  split
  next => rfl
  next =>
    simp only [apply_ite (Except.mapError (Located.shift places))]
    simp [Except.mapError, Located.shift, Nat.add_assoc]

/-- One token is found as at any other place, and a fault as many places on. -/
theorem lexToken_shift (previous : Option TokenKind) (c : Char) (rest : List Char)
    (offset stop : Nat) :
    lexToken previous c rest (places + offset) (places + stop) =
      (lexToken previous c rest offset stop).mapError (.shift places) := by
  -- Which token it is does not depend on the offsets, so the branches are the same on both sides.
  simp only [lexToken, lexNumber_shift, lexString_shift, lexOperator_shift,
    apply_ite (Except.mapError (Located.shift places))]
  rfl

/-- The outcome of cutting a part, placed in the text. -/
def shiftOutcome (outcome : Except (Located Cause) (List (Located TokenKind))) :
    Except (Located Cause) (List (Located TokenKind)) :=
  (outcome.mapError (.shift places)).map (List.map (.shift places))

/-- The tokens are those found at any other place, as many places on. -/
theorem lexFrom_shift (stop : Nat) (previous : Option TokenKind) (offset skip : Nat)
    (text : List Char) :
    lexFrom (places + stop) previous (places + offset) skip text =
      shiftOutcome places (lexFrom stop previous offset skip text) := by
  induction text generalizing previous offset skip with
  | nil => rfl
  | cons c rest ih =>
      cases skip with
      | succ skip =>
          rw [lexFrom, lexFrom, Nat.add_assoc]
          exact ih _ _ _
      | zero =>
          rw [lexFrom, lexFrom]
          -- The first token is found there as here, and so are those behind it.
          simp only [Nat.add_assoc, ih, lexToken_shift]
          split
          next => rfl
          next =>
            cases lexToken previous c rest offset stop with
            | error fault => rfl
            | ok token =>
                obtain ⟨kind, count⟩ := token
                simp only [Except.mapError]
                cases lexFrom stop (some kind) (offset + c.utf8Size) count rest with
                | error fault => rfl
                | ok found => rfl

end Places

/-! ### The text between two offsets -/

/-- The characters in front of a part are passed over. -/
theorem charsBetween_skip {offset : Nat} (before rest : List Char)
    (isStart : start = offset + byteLength before) :
    Source.charsBetween start stop offset (before ++ rest) =
      Source.charsBetween start stop start rest := by
  induction before generalizing offset with
  | nil => rw [isStart]; rfl
  | cons c before ih =>
      have positive := c.utf8Size_pos
      rw [byteLength] at isStart
      rw [List.cons_append, Source.charsBetween, if_pos (by omega), ih (by omega)]

/-- The characters of a part are taken, and none behind it. -/
theorem charsBetween_take {offset : Nat} (part after : List Char) (le : start ≤ offset)
    (isStop : stop = offset + byteLength part) :
    Source.charsBetween start stop offset (part ++ after) = part := by
  induction part generalizing offset with
  | nil =>
      rw [byteLength, Nat.add_zero] at isStop
      cases after with
      | nil => rfl
      | cons c after =>
          rw [List.nil_append, Source.charsBetween, if_neg (by omega), if_neg (by omega)]
  | cons c part ih =>
      have positive := c.utf8Size_pos
      rw [byteLength] at isStop
      rw [List.cons_append, Source.charsBetween, if_neg (by omega), if_pos (by omega),
        ih (by omega) (by omega)]

/-- The characters between two offsets at the edges of characters are the part between them. -/
theorem charsBetween_of_cut? {text : List Char} (here : cut? text start stop = some part) :
    Source.charsBetween start stop 0 text = part := by
  obtain ⟨before, after, rfl, isStart, isStop⟩ := cut?_eq_some_iff.mp here
  -- Offsets count from the start of the text, in front of everything that is passed over.
  rw [charsBetween_skip before _ (by rw [Nat.zero_add, isStart]),
    charsBetween_take part after (Nat.le_refl _) isStop]

/-! ### The bytes of tokens -/

/-- Every token takes characters of the text that it is cut off. -/
theorem CutFrom.exists_taken {text rest : List Char} {previous : Option TokenKind} {offset : Nat}
    {found : List (Located TokenKind)} (cut : CutFrom stop previous offset rest found)
    (here : cut? text offset stop = some rest) :
    ∀ token ∈ found, ∃ taken, taken ≠ [] ∧ cut? text token.start token.stop = some taken := by
  induction cut with
  | nil => exact nofun
  | separator _ _ ih => exact ih (cut?_next here)
  | @token _ _ c taken _ _ _ _ _ _ _ ih =>
      exact List.forall_mem_cons.mpr
        ⟨⟨c :: taken, List.cons_ne_nil _ _, cut?_left (c :: taken) here⟩,
          ih (cut?_right (c :: taken) here)⟩

end Token

/-! ### Parts as sources of their own -/

namespace Source

open Checked (spanned)

variable {source : Source} {part : List Char} {start stop : Nat}

/-- The tokens between two offsets at the edges of characters are those of the part there. -/
theorem tokensBetween_of_cut? (here : cut? source.text start stop = some part) :
    source.tokensBetween start stop = Token.lex source part start stop := by
  have le : stop ≤ source.size := le_of_cut? here
  have isStop := stop_of_cut? here
  rw [tokensBetween, Nat.min_eq_left le, Nat.min_eq_left (by omega),
    Token.charsBetween_of_cut? here]

/-- The outcome of cutting a part is the one of cutting it as a source of its own, placed in the
text. -/
theorem lexFrom_of_cut? (here : cut? source.text start stop = some part) :
    Token.lexFrom stop none start 0 part =
      Token.shiftOutcome start (Token.lexFrom (byteLength part) none 0 0 part) := by
  rw [← Token.lexFrom_shift, ← stop_of_cut? here, Nat.add_zero]

/-- The tokens of one source are those between two offsets of another one, each as many bytes on and
of the same characters; or both have the same fault, also as many bytes on. -/
inductive LexesAt (start stop : Nat) (alone source : Source) : Prop where
  | tokens (found : List (Located TokenKind)) :
      alone.tokens = .ok (spanned alone found) →
      source.tokensBetween start stop = .ok (spanned source (found.map (.shift start))) →
      (∀ token ∈ found, ∃ taken, taken ≠ [] ∧
        cut? alone.text token.start token.stop = some taken ∧
        cut? source.text (start + token.start) (start + token.stop) = some taken) →
      LexesAt start stop alone source
  | fault (fault : Located Cause) :
      alone.tokens = .error ⟨fault.item, fault.span alone⟩ →
      source.tokensBetween start stop = .error ⟨fault.item, (fault.shift start).span source⟩ →
      LexesAt start stop alone source

/-- A part between two offsets at the edges of characters is cut into the tokens that it has as a
source of its own, or has its fault, whose code and message follow from the cause. Both are what
reading by offsets finds, which looks ahead in the text of the whole source: what is behind the part
does not matter there either, as long as no sum is caught. -/
theorem lexesAt_of_cut? (here : cut? source.text start stop = some part) (name : String) :
    let alone : Source := ⟨name, part⟩
    LexesAt start stop alone source ∧
      (∀ (overflow : Checked.Overflow) [overflow.Fits source],
        Checked.lex overflow source start stop =
          Checked.found source (source.tokensBetween start stop)) ∧
      ∀ (overflow : Checked.Overflow) [overflow.Fits alone],
        Checked.lex overflow alone 0 alone.size = Checked.found alone alone.tokens := by
  intro alone
  have whole : cut? alone.text 0 alone.size = some part := cut?_whole part
  have inside : source.tokensBetween start stop = Token.lex source part start stop :=
    tokensBetween_of_cut? here
  have outside : alone.tokens = Token.lex alone part 0 (byteLength part) := rfl
  refine ⟨?_, fun overflow _ => by rw [inside, Checked.lex_eq here],
    fun overflow _ => Checked.lex_eq whole⟩
  rw [Token.lex, lexFrom_of_cut? here] at inside
  rw [Token.lex] at outside
  -- Both are cut from the same characters, counted from zero, and differ by a shift only.
  cases lexed : Token.lexFrom (byteLength part) none 0 0 part with
  | ok found =>
      rw [lexed] at inside outside
      refine .tokens found outside (inside.trans ?_) fun token isMember => ?_
      · simp [Token.shiftOutcome, Except.mapError, Except.map, spanned]
      obtain ⟨taken, nonempty, isTaken⟩ :=
        (Token.cutFrom_of_lexFrom lexed).exists_taken whole token isMember
      exact ⟨taken, nonempty, isTaken, cut?_of_part here isTaken⟩
  | error fault =>
      rw [lexed] at inside outside
      exact .fault fault outside inside

/-- An operator ends where the part does, although the character behind would make it a longer
one. -/
theorem lexesAt_of_cut?_of_operator :
    let source : Source := .ofString "page" "ü \x7b\x7b a <= b \x7d\x7d"
    let alone : Source := ⟨"part", "a <".toList⟩
    cut? source.text 6 9 = some alone.text ∧ LexesAt 6 9 alone source ∧
      Checked.lex .caught source 6 9 = Checked.found source (source.tokensBetween 6 9) ∧
      Checked.lex .wraps alone 0 alone.size = Checked.found alone alone.tokens := by
  intro source alone
  have here : cut? source.text 6 9 = some alone.text := by decide
  have : Checked.Overflow.caught.Fits source := ⟨fun _ => by decide⟩
  obtain ⟨tokens, inside, outside⟩ := lexesAt_of_cut? here "part"
  exact ⟨here, tokens, inside .caught, outside .wraps⟩

end Source

end TextTemplate
