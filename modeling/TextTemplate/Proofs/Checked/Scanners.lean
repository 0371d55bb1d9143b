import TextTemplate.Proofs.Checked.Reading
import TextTemplate.Proofs.Token.Taken

/-! # Scanning numbers, strings and names by offsets

The tokens that consist of a run of characters, found byte by byte. Looking ahead never leaves the
range; the text of a name or a string is cut out of the source, and a closing quote is found by
looking back at the bytes before it. Every such access is in place, and what is found is what the
text between the offsets starts with. -/

namespace TextTemplate.Checked

open Token Node.Parser

variable (overflow : Overflow) (source : Source) (stop : Nat)

/-! ### Looking ahead -/

/-- The byte at an offset; `none` behind the end. -/
def peek (offset : Nat) : Option Char := if offset < stop then byte? source.text offset else none

variable {source stop} in
/-- Looking behind the end finds nothing. -/
theorem lt_of_peek {offset : Nat} {c : Char} (here : peek source stop offset = some c) :
    offset < stop := (Option.ite_none_right_eq_some.mp here).1

/-- The bytes of a kind from an offset on, and the offset behind them. -/
def takeRun (kind : Char → Bool) (offset : Nat) : List Char × Nat :=
  match _here : peek source stop offset with
  | some c =>
      if kind c then
        let (run, after) := takeRun kind (offset + 1)
        (c :: run, after)
      else ([], offset)
  | none => ([], offset)
termination_by stop - offset
decreasing_by
  have := lt_of_peek _here
  omega

/-! ### Numbers -/

/-- The point and the digits of a fraction, and the offset behind them. -/
def scanFraction (offset : Nat) : List Char × Nat :=
  if peek source stop offset = some '.' ∧ (peek source stop (offset + 1)).any Char.isDigit then
    let (digits, after) := takeRun source stop Char.isDigit (offset + 1)
    ('.' :: digits, after)
  else ([], offset)

/-- The mark, sign and digits of an exponent, and the offset behind them. -/
def scanExponent (offset : Nat) : List Char × Nat :=
  if peek source stop offset = some 'e' ∨ peek source stop offset = some 'E' then
    let sign := ((peek source stop (offset + 1)).filter fun c => c == '+' || c == '-').toList
    if (peek source stop (offset + 1 + sign.length)).any Char.isDigit then
      let (digits, after) := takeRun source stop Char.isDigit (offset + 1 + sign.length)
      ('e' :: sign ++ digits, after)
    else ([], offset)
  else ([], offset)

/-- The spelling of the number at an offset, and the offset behind it. -/
def numberAt (start : Nat) : List Char × Nat :=
  let sign := if peek source stop start = some '-' then ['-'] else []
  let zero := if peek source stop (start + sign.length) = some '.' then ['0'] else []
  let (whole, fractionStart) := takeRun source stop Char.isDigit (start + sign.length)
  let (fraction, exponentStart) := scanFraction source stop fractionStart
  let (exponent, after) := scanExponent source stop exponentStart
  (sign ++ zero ++ whole ++ fraction ++ exponent, after)

/-- The number at an offset, and the offset behind it. -/
def scanNumber (start : Nat) : Reading (TokenKind × Nat) := do
  let (spelling, after) := numberAt source stop start
  if (peek source stop after).any isNameChar then
    let shown ← byte? source.text after
    failAt overflow source (.unexpectedAfterNumber shown) after (after + 1)
  else
    match Numeric.parse? spelling with
    | some value =>
        if value.isFinite then return (.number value, after)
        else
          failAt overflow source (.numberOutOfRange (String.ofList spelling)) start
            (max after (start + 1))
    | none =>
        failAt overflow source (.invalidNumber (String.ofList spelling)) start
          (max after (start + 1))

/-! ### Strings -/

/-- How many backslashes stand directly before an index, not counting any before another one. -/
def backslashesBefore (text : List Char) (first index : Nat) : Option Nat :=
  if first ≤ index ∧ index ≤ byteLength text then
    some ((((bytes text).take index).drop first).reverse.takeWhile (· == '\\')).length
  else none

/-- The offset of the closing quote of a string whose content starts at `first`. The outer `none`
stands for an access out of place. -/
def closingQuote (quote : Char) (first index : Nat) : Option (Option Nat) :=
  if _within : index < stop then do
    let byte ← byte? source.text index
    if byte = quote then
      let run ← backslashesBefore source.text first index
      if run % 2 = 0 then return some index else closingQuote quote first (index + 1)
    else closingQuote quote first (index + 1)
  else some none
termination_by stop - index

/-- The string that opens at an offset, and the offset behind it. -/
def scanString (quote : Char) (start : Nat) : Reading (TokenKind × Nat) := do
  match ← closingQuote source stop quote (start + 1) (start + 1) with
  | none => failAt overflow source .unterminatedString start (max stop (start + 1))
  | some close =>
      let content ← cut? source.text (start + 1) close
      return (.text (String.ofList (decodeEscapes content)), close + 1)

/-! ### Names -/

/-- The dotted name at an offset, and the offset behind it. -/
def scanPath (start : Nat) : Option (List Char × Nat) := do
  let after := (takeRun source stop isPathChar start).2
  let name ← cut? source.text start after
  return (name, after)

/-- The token of the name at an offset, and the offset behind it. -/
def scanName (start : Nat) : Reading (TokenKind × Nat) := do
  let (name, after) ← scanPath source stop start
  let next := (takeRun source stop isSeparator after).2
  if peek source stop next = some '(' then return (.method (String.ofList name), after)
  else if name = "true".toList then return (.boolean true, after)
  else if name = "false".toList then return (.boolean false, after)
  else return (.identifier (String.ofList name), after)

/-- The dotted suffix at an offset, and the offset behind it. -/
def scanProperty (start : Nat) : Reading (TokenKind × Nat) := do
  let (name, after) ← scanPath source stop (start + 1)
  return (.property (String.ofList (dropDots name)), after)

/-! ### What is seen ahead -/

section Peek

variable {source : Source} {offset stop : Nat} {body : List Char}

/-- Looking ahead shows the first byte of what follows. -/
theorem peek_eq (here : cut? source.text offset stop = some body) :
    peek source stop offset = body.head?.map lead := by
  have isStop := stop_of_cut? here
  cases body with
  | nil => rw [peek, if_neg (by rw [isStop]; exact Nat.lt_irrefl _)]; rfl
  | cons c rest =>
      have positive := c.utf8Size_pos
      rw [byteLength] at isStop
      rw [peek, if_pos (by omega), byte?_of_cut? here]
      rfl

/-- So it tells whether what follows starts with a character of a narrow kind. -/
theorem any_peek {kind : Char → Bool} (narrow : IsNarrow kind)
    (here : cut? source.text offset stop = some body) :
    (peek source stop offset).any kind = body.head?.any kind := by
  rw [peek_eq here]
  cases body with
  | nil => rfl
  | cons c rest => exact narrow.lead c

/-- And whether it starts with a given character below 128. -/
theorem peek_eq_some_iff {symbol : Char} (ascii : symbol.toNat < 128)
    (here : cut? source.text offset stop = some body) :
    peek source stop offset = some symbol ↔ body.head? = some symbol := by
  rw [peek_eq here]
  cases body with
  | nil => simp
  | cons c rest => simpa using (isNarrow_beq ascii).lead c

/-- Behind a run of a narrow kind, the rest of a cut is a cut. -/
theorem cut?_dropWhile {kind : Char → Bool} (narrow : IsNarrow kind)
    (here : cut? source.text offset stop = some body) :
    cut? source.text (offset + (body.takeWhile kind).length) stop = some (body.dropWhile kind) :=
  cut?_ascii (fun c isTaken => narrow c (List.all_eq_true.mp List.all_takeWhile c isTaken))
    (by rwa [List.takeWhile_append_dropWhile])

/-- A run of a narrow kind is what the text starts with. -/
theorem takeRun_eq {kind : Char → Bool} (narrow : IsNarrow kind)
    (here : cut? source.text offset stop = some body) :
    takeRun source stop kind offset =
      (body.takeWhile kind, offset + (body.takeWhile kind).length) := by
  induction body generalizing offset with
  | nil =>
      rw [takeRun]
      split
      next c isByte => rw [peek_eq here] at isByte; cases isByte
      next => rfl
  | cons c rest ih =>
      rw [takeRun]
      split
      next byte isByte =>
        rw [peek_eq here] at isByte
        obtain rfl := Option.some.inj isByte
        rw [narrow.lead]
        by_cases isKind : kind c = true
        · -- A character of the run is one byte, so that the offset and the characters go on
          -- together.
          have ascii := narrow c isKind
          have behind := ih (cut?_cons ascii here)
          rw [if_pos isKind, behind, lead_ascii ascii, List.takeWhile_cons_of_pos isKind,
            List.length_cons, Nat.add_assoc, Nat.add_comm 1]
        · rw [if_neg isKind, List.takeWhile_cons_of_neg isKind]
          rfl
      next noByte => rw [peek_eq here] at noByte; cases noByte

/-- Behind a solid start, the rest of a cut is a cut. -/
theorem cut?_drop {count : Nat} (starts : StartsSolid count body)
    (here : cut? source.text offset stop = some body) :
    cut? source.text (offset + count) stop = some (body.drop count) := by
  have behind := cut?_ascii (fun c isTaken => (starts.solid c isTaken).ascii)
    (here.trans (congrArg some (List.take_append_drop count body).symm))
  rwa [List.length_take, Nat.min_eq_left starts.le] at behind

/-- Behind a first character below 128, the rest of a cut is a cut. -/
theorem cut?_tail {c : Char} (ascii : c.toNat < 128) (isHead : body.head? = some c)
    (here : cut? source.text offset stop = some body) :
    cut? source.text (offset + 1) stop = some body.tail := by
  obtain ⟨rest, rfl⟩ : ∃ rest, body = c :: rest := ⟨_, List.eq_cons_of_mem_head? isHead⟩
  exact cut?_cons ascii here

/-- A solid start takes as many bytes as characters. -/
theorem byteLength_take {count : Nat} (starts : StartsSolid count body) :
    byteLength (body.take count) = count := by
  rw [byteLength_ascii fun c isTaken => (starts.solid c isTaken).ascii, List.length_take,
    Nat.min_eq_left starts.le]

end Peek

/-! ### Numbers in texts -/

section Numbers

variable {source : Source} {offset stop : Nat} {body : List Char}

/-- The fraction at an offset is that of the text. -/
theorem scanFraction_eq (here : cut? source.text offset stop = some body) :
    scanFraction source stop offset =
      (fractionPart body, offset + (fractionPart body).length) := by
  rw [scanFraction, fractionPart]
  by_cases isPoint : body.head? = some '.'
  · have behind := cut?_tail (by decide) isPoint here
    have sees := (peek_eq_some_iff (by decide) here).mpr isPoint
    simp only [isPoint, sees, any_peek isNarrow_isDigit behind, takeRun_eq isNarrow_isDigit behind,
      startsWithDigit, List.drop_one, true_and]
    split
    next => simp only [List.length_cons, Nat.add_assoc, Nat.add_comm 1]
    next => rfl
  · have misses := mt (peek_eq_some_iff (by decide) here).mp isPoint
    simp [isPoint, misses]

/-- What one character of a narrow kind is seen to be is what the text starts with. -/
theorem filter_peek {kind : Char → Bool} (narrow : IsNarrow kind)
    (here : cut? source.text offset stop = some body) :
    ((peek source stop offset).filter kind).toList = (body.takeWhile kind).take 1 := by
  rw [peek_eq here]
  cases body with
  | nil => rfl
  | cons c rest =>
      have same := narrow.lead c
      by_cases isKind : kind c = true
      · have ascii := lead_ascii (narrow c isKind)
        simp [isKind, ascii]
      · rw [Bool.not_eq_true] at isKind
        rw [isKind] at same
        simp [isKind, same]

/-- The exponent at an offset is that of the text. -/
theorem scanExponent_eq (here : cut? source.text offset stop = some body) :
    scanExponent source stop offset =
      (exponentPart body, offset + (exponentPart body).length) := by
  rw [scanExponent, exponentPart]
  by_cases isMark : body.head? = some 'e' ∨ body.head? = some 'E'
  · have sees : peek source stop offset = some 'e' ∨ peek source stop offset = some 'E' := by
      rwa [peek_eq_some_iff (by decide) here, peek_eq_some_iff (by decide) here]
    have behind : cut? source.text (offset + 1) stop = some body.tail := by
      rcases isMark with isMark | isMark <;> exact cut?_tail (by decide) isMark here
    rw [if_pos isMark, if_pos sees]
    -- The sign may be missing; either way the digits are looked for behind it.
    have narrow : IsNarrow fun c => c == '+' || c == '-' :=
      (isNarrow_beq (by decide)).or (isNarrow_beq (by decide))
    have solid : ∀ c, (c == '+' || c == '-') = true → IsSolid c := fun c isSign => by
      rcases Bool.or_eq_true_iff.mp isSign with same | same <;> rw [eq_of_beq same] <;> decide
    have after := cut?_drop (.takeOne _ solid body.tail) behind
    rw [filter_peek narrow behind, List.drop_one]
    generalize (body.tail.takeWhile fun c => c == '+' || c == '-').take 1 = sign at after
    rw [← List.drop_one, List.drop_drop] at after
    have digit : (peek source stop (offset + 1 + sign.length)).any Char.isDigit =
        startsWithDigit (body.drop (1 + sign.length)) := any_peek isNarrow_isDigit after
    simp only [digit, takeRun_eq isNarrow_isDigit after]
    by_cases isDigit : startsWithDigit (body.drop (1 + sign.length)) = true
    · simp only [if_pos isDigit, List.length_append, List.length_cons, Prod.mk.injEq, true_and]
      omega
    · simp only [if_neg isDigit, List.length_nil, Nat.add_zero]
  · have misses : ¬(peek source stop offset = some 'e' ∨ peek source stop offset = some 'E') := by
      rwa [peek_eq_some_iff (by decide) here, peek_eq_some_iff (by decide) here]
    rw [if_neg isMark, if_neg misses]
    rfl

/-- The spelling at an offset is that of the text. -/
theorem numberAt_eq (here : cut? source.text offset stop = some body) :
    numberAt source stop offset = ((numberPart body).1, offset + (numberPart body).2) := by
  have isSign : (if peek source stop offset = some '-' then ['-'] else []) =
      (body.takeWhile (· == '-')).take 1 := by
    rw [← filter_peek (isNarrow_beq (by decide)) here]
    cases peek source stop offset with
    | none => rfl
    | some c => by_cases same : c = '-' <;> simp [Option.filter, same]
  have solid : ∀ c, (c == '-') = true → IsSolid c := fun c same => by
    rw [eq_of_beq same]
    decide
  have signed := cut?_drop (.takeOne _ solid body) here
  rw [numberAt, numberPart]
  simp only [isSign]
  -- From here on each part is scanned from behind the one before, by the cut that starts there.
  generalize (body.takeWhile (· == '-')).take 1 = sign at signed
  have isZero : peek source stop (offset + sign.length) = some '.' ↔
      (body.drop sign.length).head? = some '.' := peek_eq_some_iff (by decide) signed
  simp only [isZero]
  generalize body.drop sign.length = unsigned at signed
  have whole := cut?_drop (.takeWhile Char.isDigit (fun _ => isSolid_of_isDigit) _) signed
  have fraction := cut?_drop (startsSolid_fractionPart _) whole
  rw [List.drop_drop] at fraction
  simp only [takeRun_eq isNarrow_isDigit signed, scanFraction_eq whole, scanExponent_eq fraction]
  simp only [Nat.add_assoc]

/-- The number at an offset is that of the text. -/
theorem scanNumber_eq {overflow : Overflow} [overflow.Fits source]
    (here : cut? source.text offset stop = some body) (positive : 0 < (numberPart body).2) :
    scanNumber overflow source stop offset =
      found source ((locate source (lexNumber body offset)).map fun step =>
        (step.1, offset + (step.2 + 1))) := by
  have after := cut?_drop (startsSolid_numberPart body) here
  have le : max (offset + (numberPart body).2) (offset + 1) = offset + (numberPart body).2 := by
    omega
  rw [scanNumber, lexNumber, numberAt_eq here]
  simp only [any_peek isNarrow_isNameChar after, le]
  -- A number must not run into a name, which is reported at the byte where it does.
  cases isName : (body.drop (numberPart body).2).head?.filter isNameChar with
  | some c =>
      obtain ⟨isHead, isName⟩ := Option.filter_eq_some_iff.mp isName
      have isByte := byte?_of_cut? (after.trans (congrArg some (List.eq_cons_of_mem_head? isHead)))
      rw [lead_ascii (isNarrow_isNameChar c isName)] at isByte
      simp [isHead, isName, isByte, locate, Except.map, Located.span]
  | none =>
      have noName : (body.drop (numberPart body).2).head?.any isNameChar = false := by
        rw [← Option.isSome_filter, isName]
        rfl
      simp only [noName, Bool.false_eq_true, if_false]
      cases Numeric.parse? (numberPart body).1 with
      | none => simp [locate, Except.map, Located.span]
      | some value =>
          by_cases isFinite : value.isFinite = true
          · simp [isFinite, locate, Except.map, Nat.sub_add_cancel positive]
          · simp [isFinite, locate, Except.map, Located.span]

end Numbers

/-! ### Strings in texts -/

/-- How many backslashes a text ends with. -/
def trailing (text : List Char) : Nat := (text.reverse.takeWhile (· == '\\')).length

/-- The last character adds to the backslashes at the end, or leaves none there. -/
theorem trailing_concat (text : List Char) (c : Char) :
    trailing (text ++ [c]) = if c = '\\' then trailing text + 1 else 0 := by
  by_cases same : c = '\\' <;> simp [trailing, same]

/-- The bytes of a text end with as many backslashes as the text. -/
theorem trailing_bytes (text : List Char) : trailing (bytes text) = trailing text := by
  induction text using List.reverseRecOn with
  | nil => rfl
  | append_singleton text c ih =>
      rw [bytes_append, trailing_concat, show bytes [c] = charBytes c by simp [bytes]]
      by_cases ascii : c.toNat < 128
      · rw [charBytes_ascii ascii, trailing_concat, ih]
      · -- The last byte of a wide character is no backslash.
        have wide := wide_charBytes (Nat.le_of_not_lt ascii)
        have nonempty : charBytes c ≠ [] := by
          rw [← List.length_pos_iff, length_charBytes]
          exact c.utf8Size_pos
        have last := wide _ (List.getLast_mem nonempty)
        rw [← List.dropLast_concat_getLast nonempty, ← List.append_assoc, trailing_concat, if_neg,
          if_neg]
        · rintro rfl
          exact ascii (by decide)
        · intro same
          rw [same] at last
          exact absurd last (by decide)

section Strings

variable {source : Source} {stop : Nat}

/-- The backslashes before an offset are those that the text before it ends with. -/
theorem backslashesBefore_eq {text taken : List Char} {first index : Nat}
    (before : cut? text first index = some taken) :
    backslashesBefore text first index = some (trailing taken) := by
  have isStop := stop_of_cut? before
  rw [backslashesBefore, if_pos ⟨by omega, le_of_cut? before⟩, bytes_of_cut? before,
    ← trailing_bytes]
  rfl

/-- The closing quote at offsets is that of the text. -/
theorem closingQuote_eq {quote : Char} (isQuote : quote = '"' ∨ quote = '\'') {first index : Nat}
    {taken rest : List Char} (before : cut? source.text first index = some taken)
    (here : cut? source.text index stop = some rest) :
    closingQuote source stop quote first index =
      some ((closingQuote? quote (trailing taken) rest).map fun length =>
        index + byteLength (rest.take length)) := by
  have ascii : quote.toNat < 128 := by rcases isQuote with rfl | rfl <;> decide
  induction rest generalizing index taken with
  | nil =>
      rw [closingQuote, dif_neg (by rw [stop_of_cut? here]; exact Nat.lt_irrefl _)]
      rfl
  | cons c rest ih =>
      have isStop := stop_of_cut? here
      have positive := c.utf8Size_pos
      rw [byteLength] at isStop
      have within : index < stop := by omega
      have behind := ih (cut?_join before (cut?_left [c] here)) (cut?_right [c] here)
      rw [trailing_concat, byteLength, byteLength, Nat.add_zero] at behind
      -- A character that does not close the string is passed, whatever its bytes are.
      have passed (open' : ¬(c = quote ∧ trailing taken % 2 = 0))
          (passes : closingQuote source stop quote first index =
            closingQuote source stop quote first (index + c.utf8Size)) :
          closingQuote source stop quote first index =
            some ((closingQuote? quote (trailing taken) (c :: rest)).map fun length =>
              index + byteLength ((c :: rest).take length)) := by
        rw [passes, behind, closingQuote?, if_neg open', Option.map_map]
        simp only [Function.comp_def, List.take_succ_cons, byteLength, Nat.add_assoc]
      by_cases narrow : c.toNat < 128
      · have isByte : byte? source.text index = some c := by
          rw [byte?_of_cut? here, lead_ascii narrow]
        have step : closingQuote source stop quote first index =
            if c = quote ∧ trailing taken % 2 = 0 then some (some index)
            else closingQuote source stop quote first (index + c.utf8Size) := by
          rw [closingQuote, dif_pos within, isByte, backslashesBefore_eq before,
            utf8Size_ascii narrow]
          by_cases same : c = quote <;> by_cases even : trailing taken % 2 = 0 <;> simp [same, even]
        by_cases closes : c = quote ∧ trailing taken % 2 = 0
        · rw [step, if_pos closes, closingQuote?, if_pos closes]
          rfl
        · exact passed closes (step.trans (if_neg closes))
      · refine passed (fun closes => narrow (closes.1 ▸ ascii)) ?_
        refine eq_of_wide (fun index byte isByte wide => ?_) here (Nat.le_of_not_lt narrow)
          (Nat.zero_le _)
        have other : byte ≠ quote := by
          rintro rfl
          omega
        rw [closingQuote]
        split
        next => simp [isByte, other]
        next past => rw [closingQuote, dif_neg (by omega)]

/-- The string at an offset is that of the text. -/
theorem scanString_eq {overflow : Overflow} [overflow.Fits source] {quote : Char}
    (isQuote : quote = '"' ∨ quote = '\'') {start : Nat}
    {rest : List Char} (here : cut? source.text start stop = some (quote :: rest)) :
    scanString overflow source stop quote start =
      found source ((locate source (lexString quote rest start stop)).map fun step =>
        (step.1, start + byteLength (quote :: rest.take step.2))) := by
  have ascii : quote.toNat < 128 := by rcases isQuote with rfl | rfl <;> decide
  have content : cut? source.text (start + 1) stop = some rest :=
    cut?_cons ascii here
  have le : max stop (start + 1) = stop := by
    have := stop_of_cut? content
    omega
  have closing : closingQuote source stop quote (start + 1) (start + 1) =
      some ((closingQuote? quote 0 rest).map fun length =>
        start + 1 + byteLength (rest.take length)) :=
    closingQuote_eq isQuote (cut?_left [] content) content
  rw [scanString, closing, lexString, le]
  cases closes : closingQuote? quote 0 rest with
  | none => simp [locate, Except.map, Located.span]
  | some length =>
      obtain ⟨inside, others, rfl, rfl, -⟩ := exists_of_closingQuote? closes
      -- The quotes are one byte each, whatever the characters between them.
      have stops : start + 1 + byteLength inside + 1 =
          start + byteLength (quote :: (inside ++ [quote])) := by
        rw [byteLength, byteLength_append, byteLength, byteLength, utf8Size_ascii ascii]
        omega
      have taken : (inside ++ quote :: others).take (inside.length + 1) = inside ++ [quote] := by
        simp [List.take_append]
      simp [locate, Except.map, cut?_left inside content, taken, stops]

end Strings

/-! ### Names in texts -/

section Names

variable {source : Source} {start stop : Nat} {body : List Char}

/-- The name at an offset is that of the text. -/
theorem scanPath_eq (here : cut? source.text start stop = some body) :
    scanPath source stop start =
      some (body.takeWhile isPathChar, start + (body.takeWhile isPathChar).length) := by
  have taken := cut?_left (body.takeWhile isPathChar)
    (here.trans (congrArg some (List.takeWhile_append_dropWhile).symm))
  rw [byteLength_ascii fun c isTaken =>
    isNarrow_isPathChar c (List.all_eq_true.mp List.all_takeWhile c isTaken)] at taken
  simp [scanPath, takeRun_eq isNarrow_isPathChar here, taken]

/-- The token of the name at an offset is that of the text. -/
theorem scanName_eq (here : cut? source.text start stop = some body) :
    scanName source stop start =
      pure (nameToken (body.takeWhile isPathChar) (body.dropWhile isPathChar),
        start + (body.takeWhile isPathChar).length) := by
  have after := cut?_dropWhile isNarrow_isPathChar here
  have next := cut?_dropWhile isNarrow_isSeparator after
  have opens : peek source stop _ = some '(' ↔ _ := peek_eq_some_iff (by decide) next
  have call : callFollows (body.dropWhile isPathChar) = true ↔
      ((body.dropWhile isPathChar).dropWhile isSeparator).head? = some '(' := by
    simp [callFollows]
  simp only [scanName, scanPath_eq here, lift_some, pure_bind,
    takeRun_eq isNarrow_isSeparator after, opens, ← call, nameToken]
  split
  · rfl
  · split
    · rfl
    · split <;> rfl

end Names

end TextTemplate.Checked
