import TextTemplate.Proofs.Checked.Reading
import TextTemplate.Proofs.Node.Joined

/-! # Finding tags by offsets

The tags of a source, found byte by byte. The search for a closer passes over one byte after each
backslash inside quotes, also where that byte is the first one of several; it is back at the edge of
a character before it can end. Every access is in place, and the tags are those of the scan. -/

namespace TextTemplate

/-- A tag by the offsets of its parts. -/
structure TagRange where
  kind : TagKind
  start : Nat
  /-- The offset of the closer. -/
  innerStop : Nat
  deriving DecidableEq

namespace TagRange

/-- The offset of the inner text. -/
def innerStart (range : TagRange) : Nat := range.start + 2

/-- The offset after the closer. -/
def stop (range : TagRange) : Nat := range.innerStop + 2

end TagRange

namespace Tag

/-- The offsets of a tag. -/
def range (tag : Tag) : TagRange := ⟨tag.kind, tag.start, tag.innerStop⟩

variable (tag : Tag)

@[simp] theorem kind_range : tag.range.kind = tag.kind := rfl

@[simp] theorem start_range : tag.range.start = tag.start := rfl

@[simp] theorem innerStart_range : tag.range.innerStart = tag.innerStart := rfl

@[simp] theorem innerStop_range : tag.range.innerStop = tag.innerStop := rfl

@[simp] theorem stop_range : tag.range.stop = tag.stop := rfl

end Tag

namespace Checked

variable (overflow : Overflow) (source : Source)

/-! ### Closers -/

/-- The bytes from an index on; `none` behind the end of the text. -/
def bytesFrom? (text : List Char) (index : Nat) : Option (List Char) :=
  if index ≤ byteLength text then some ((bytes text).drop index) else none

/-- The offset of the first closer from an offset on. Here a cut out of place only means that there
is none. -/
def plainCloser (kind : TagKind) (start : Nat) : Option Nat :=
  (cut? source.text start source.size).bind fun rest =>
    (kind.firstCloser? rest).map fun count => start + byteLength (rest.take count)

/-- The offset of the first closer outside of quotes. The outer `none` stands for an access out of
place. -/
def quotedCloser (kind : TagKind) (quote? : Option Char) (index : Nat) : Option (Option Nat) :=
  if _within : index < source.size then do
    let byte ← byte? source.text index
    match quote? with
    | some quote =>
        if byte = '\\' then quotedCloser kind (some quote) (index + 2)
        else quotedCloser kind (if byte = quote then none else some quote) (index + 1)
    | none =>
        if byte = '"' ∨ byte = '\'' then quotedCloser kind (some byte) (index + 1)
        else
          let rest ← bytesFrom? source.text index
          if kind.closer.isPrefixOf rest then return some index
          else quotedCloser kind none (index + 1)
  else some none
termination_by source.size - index

/-- The offset of the closer of a tag whose inner text starts at an offset. -/
def findCloser (kind : TagKind) (start : Nat) : Option (Option Nat) :=
  match kind with
  | .comment => some (plainCloser source kind start)
  | .interpolation | .statement => do
      match ← quotedCloser source kind none start with
      | some close => return some close
      | none => return plainCloser source kind start

/-! ### Tags -/

/-- The form of the tag that opens at an index, if one does. -/
def openerAt (index : Nat) : Option (Option TagKind) := do
  if (← byte? source.text index) = '\x7b' then
    let marker ← byte? source.text (index + 1)
    return TagKind.ofMarker? marker
  else return none

/-- The first tag that opens from an index on and before a limit. -/
def nextTag (index limit : Nat) : Reading (Option TagRange) :=
  if _within : index + 1 < min limit source.size then do
    match ← openerAt source index with
    | some kind =>
        match ← findCloser source kind (index + 2) with
        | some close => return some ⟨kind, index, close⟩
        | none => failAt overflow source (.unclosedTag kind) index (index + 2)
    | none => nextTag (index + 1) limit
  else return none
termination_by source.size - index
decreasing_by
  have := Nat.lt_of_lt_of_le _within (Nat.min_le_right _ _)
  omega

/-! ### Searches that are noted -/

/-- A tag that has been found, with the range that it was looked for in. -/
structure Sighting where
  start : Nat
  limit : Nat
  tag : TagRange

/-- The monads in which templates are read. Their steps are those of `Reading`, and each tag that a
search finds is noted. -/
class MonadReading (m : Type → Type) where
  /-- A step that looks for no tags. -/
  perform {α : Type} : Reading α → m α
  /-- What is done about a tag that has been found. -/
  note : Sighting → m Unit

export MonadReading (perform note)

/-- Without a record, nothing is done about the tags that are found. -/
instance monadReading : MonadReading Reading := ⟨id, fun _ => pure ()⟩

@[simp] theorem perform_eq {α : Type} (step : Reading α) : (perform step : Reading α) = step := rfl

/-- The first tag that opens from an index on and before a limit, which is noted. -/
def seek {m : Type → Type} [Monad m] [MonadReading m] (index limit : Nat) :
    m (Option TagRange) := do
  match ← perform (nextTag overflow source index limit) with
  | some tag =>
      note ⟨index, limit, tag⟩
      return some tag
  | none => return none

/-- Without a record, looking for a tag is the search alone. -/
@[simp] theorem seek_eq (index limit : Nat) :
    (seek overflow source index limit : Reading (Option TagRange)) =
      nextTag overflow source index limit := by
  refine Eq.trans ?_ (bind_pure _)
  exact bind_congr fun found? => by cases found? <;> rfl

/-! ### Closers in texts -/

section Closers

variable {source : Source} {index : Nat} {kind : TagKind} {quote? : Option Char} {c : Char}
  {rest : List Char}

/-- The bytes from the start of the last part of a text on are those of that part. -/
theorem bytesFrom?_eq (here : cut? source.text index source.size = some rest) :
    bytesFrom? source.text index = some (bytes rest) := by
  have isStop := stop_of_cut? here
  have whole : (bytes source.text).take source.size = bytes source.text :=
    List.take_of_length_le (by rw [length_bytes, Source.size])
  rw [bytesFrom?, if_pos (by rw [← Source.size]; omega), ← bytes_of_cut? here, whole]

/-- A closer stands at the bytes of a text when it stands in the text. -/
theorem isPrefixOf_bytes (kind : TagKind) (c : Char) (rest : List Char) :
    kind.closer.isPrefixOf (bytes (c :: rest)) = kind.closer.isPrefixOf (c :: rest) := by
  have narrow : kind.closingMarker.toNat < 128 := by cases kind <;> decide
  rw [Bool.eq_iff_iff, bytes_cons]
  by_cases ascii : c.toNat < 128
  · rw [charBytes_ascii ascii, List.singleton_append, TagKind.isPrefixOf_closer,
      TagKind.isPrefixOf_closer]
    refine and_congr_right fun _ => ?_
    cases rest with
    | nil => rfl
    | cons d more =>
        rw [bytes_cons, List.head?_append, head?_charBytes, Option.some_or, List.head?_cons,
          Option.some.injEq, Option.some.injEq, lead_eq_iff (by decide)]
  · -- Neither a wide character nor its first byte is the mark of a closer.
    obtain ⟨first, others, isBytes⟩ := List.exists_cons_of_ne_nil
      (List.ne_nil_of_length_pos (by rw [length_charBytes]; exact c.utf8Size_pos))
    have wide := wide_charBytes (Nat.le_of_not_lt ascii) first (by rw [isBytes]; exact .head _)
    rw [isBytes, List.cons_append, TagKind.isPrefixOf_closer, TagKind.isPrefixOf_closer]
    refine iff_of_false (fun both => ?_) (fun both => ?_)
    · rw [both.1] at wide
      omega
    · rw [both.1] at ascii
      exact ascii narrow

/-- Behind the end there is no closer. -/
theorem quotedCloser_past (past : source.size ≤ index) :
    quotedCloser source kind quote? index = some none := by
  rw [quotedCloser, dif_neg (by omega)]

/-- A byte from 128 on is passed over. -/
theorem quotedCloser_wide (ascii : ∀ quote ∈ quote?, quote.toNat < 128) {byte : Char}
    (isByte : byte? source.text index = some byte) (wide : 128 ≤ byte.toNat) :
    quotedCloser source kind quote? index = quotedCloser source kind quote? (index + 1) := by
  -- Quotes, backslash and closers are narrow, so a byte of a wide character is none of them.
  have other (symbol : Char) (narrow : symbol.toNat < 128) : byte ≠ symbol := by
    rintro rfl
    omega
  have within : index < source.size :=
    Nat.lt_of_not_le fun past => by rw [byte?_eq_none_iff.mpr past] at isByte; cases isByte
  rw [quotedCloser, dif_pos within, isByte]
  cases quote? with
  | some quote =>
      simp [other '\\' (by decide), other quote (ascii quote rfl)]
  | none =>
      have noCloser (rest : List Char) : kind.closer.isPrefixOf (byte :: rest) = false := by
        rw [Bool.eq_false_iff, ne_eq, TagKind.isPrefixOf_closer]
        exact fun both => other _ (by cases kind <;> decide) both.1
      have isFirst : bytesFrom? source.text index =
          some (byte :: (bytes source.text).drop (index + 1)) := by
        obtain ⟨fits, isByte⟩ := List.getElem?_eq_some_iff.mp isByte
        rw [bytesFrom?, if_pos (Nat.le_of_lt (by rwa [length_bytes] at fits)),
          List.drop_eq_getElem_cons fits, isByte]
      simp only [Option.bind_eq_bind, Option.bind_some, other '"' (by decide),
        other '\'' (by decide), or_self, if_false, isFirst, noCloser, Bool.false_eq_true]

/-- So a character is passed over from inside. -/
theorem quotedCloser_inside (kind : TagKind) (ascii : ∀ quote ∈ quote?, quote.toNat < 128)
    (here : cut? source.text index source.size = some (c :: rest)) {inside : Nat}
    (fits : inside ≤ c.utf8Size) (isWide : 128 ≤ c.toNat ∨ inside = 1) :
    quotedCloser source kind quote? (index + inside) =
      quotedCloser source kind quote? (index + c.utf8Size) := by
  by_cases wide : 128 ≤ c.toNat
  · exact eq_of_wide (fun _ _ => quotedCloser_wide ascii) here wide fits
  · rw [isWide.resolve_left wide, utf8Size_ascii (Nat.lt_of_not_le wide)]

/-- A count of characters behind the first one, as an offset. -/
theorem offset_succ (found : Option Nat) (index : Nat) (c : Char) (rest : List Char) :
    (found.map (· + 1)).map (fun count => index + byteLength ((c :: rest).take count)) =
      found.map fun count => index + c.utf8Size + byteLength (rest.take count) := by
  rw [Option.map_map]
  simp only [Function.comp_def, List.take_succ_cons, byteLength, Nat.add_assoc]

/-- At a character below 128 the search looks at that character. -/
theorem byte?_narrow (here : cut? source.text index source.size = some (c :: rest))
    (narrow : c.toNat < 128) :
    index < source.size ∧ byte? source.text index = some c := by
  have within := next_le_of_cut? here
  rw [utf8Size_ascii narrow] at within
  exact ⟨within, by rw [byte?_of_cut? here, lead_ascii narrow]⟩

/-- Inside quotes the search goes on behind each character, or ends the quotes with it. -/
theorem quotedCloser_quoted {quote : Char} (ascii : quote.toNat < 128)
    (here : cut? source.text index source.size = some (c :: rest)) (noEscape : c ≠ '\\') :
    quotedCloser source kind (some quote) index =
      quotedCloser source kind (if c = quote then none else some quote) (index + c.utf8Size) := by
  by_cases narrow : c.toNat < 128
  · obtain ⟨within, isByte⟩ := byte?_narrow here narrow
    rw [quotedCloser, dif_pos within, isByte, utf8Size_ascii narrow]
    simp only [Option.bind_eq_bind, Option.bind_some, if_neg noEscape]
  · have passed := quotedCloser_inside kind (fun _ same => Option.some.inj same ▸ ascii) here
      (Nat.zero_le _) (.inl (Nat.le_of_not_lt narrow))
    rw [Nat.add_zero] at passed
    rw [passed, if_neg (by rintro rfl; exact narrow ascii)]

/-- Outside of quotes it goes on behind each character, starts quotes, or ends. -/
theorem quotedCloser_plain (here : cut? source.text index source.size = some (c :: rest)) :
    quotedCloser source kind none index =
      if c = '"' ∨ c = '\'' then quotedCloser source kind (some c) (index + c.utf8Size)
      else if kind.closer.isPrefixOf (c :: rest) then some (some index)
      else quotedCloser source kind none (index + c.utf8Size) := by
  by_cases narrow : c.toNat < 128
  · obtain ⟨within, isByte⟩ := byte?_narrow here narrow
    rw [quotedCloser, dif_pos within, isByte, utf8Size_ascii narrow]
    simp only [Option.bind_eq_bind, Option.bind_some, bytesFrom?_eq here, isPrefixOf_bytes,
      Option.pure_def]
  · have other (symbol : Char) (isNarrow : symbol.toNat < 128) : c ≠ symbol := by
      rintro rfl
      exact narrow isNarrow
    have noCloser : ¬kind.closer.isPrefixOf (c :: rest) = true := by
      rw [TagKind.isPrefixOf_closer]
      exact fun both => other _ (by cases kind <;> decide) both.1
    have noQuote : ∀ quote ∈ (none : Option Char), quote.toNat < 128 := nofun
    have passed := quotedCloser_inside kind noQuote here (Nat.zero_le _)
      (.inl (Nat.le_of_not_lt narrow))
    rw [Nat.add_zero] at passed
    rw [passed, if_neg (not_or.mpr ⟨other _ (by decide), other _ (by decide)⟩), if_neg noCloser]

/-- The closer outside of quotes at offsets is that of the text. -/
theorem quotedCloser_eq (here : cut? source.text index source.size = some rest)
    (ascii : ∀ quote ∈ quote?, quote.toNat < 128) :
    quotedCloser source kind quote? index =
      some ((kind.unquotedCloser? quote? rest).map fun count =>
        index + byteLength (rest.take count)) := by
  -- The cases are those of the search in the text. Each goes on behind the characters it takes.
  fun_induction TagKind.unquotedCloser? kind quote? rest generalizing index with
  | case1 => exact quotedCloser_past (by rw [stop_of_cut? here]; exact Nat.le_refl _)
  | case2 quote c rest ih =>
      obtain ⟨within, isByte⟩ := byte?_narrow here (by decide)
      have behind := cut?_cons (by decide) here
      have skipped := quotedCloser_inside kind ascii behind c.utf8Size_pos (.inr rfl)
      rw [quotedCloser, dif_pos within, isByte, Option.map_map]
      simp only [Option.bind_eq_bind, Option.bind_some, if_true]
      refine skipped.trans ?_
      rw [ih (cut?_next behind) ascii]
      simp [Function.comp_def, byteLength, Nat.add_assoc, show ('\\' : Char).utf8Size = 1 by decide]
  | case3 quote c rest notEscape ih =>
      by_cases isEscape : c = '\\'
      · -- A backslash at the very end takes nothing with it.
        obtain rfl : rest = [] := by
          cases rest with
          | nil => rfl
          | cons d more => exact (notEscape d more isEscape rfl).elim
        subst isEscape
        obtain ⟨within, isByte⟩ := byte?_narrow here (by decide)
        have isStop := stop_of_cut? here
        rw [quotedCloser, dif_pos within, isByte]
        simp only [Option.bind_eq_bind, Option.bind_some, if_true]
        rw [quotedCloser_past (by rw [isStop]; exact Nat.add_le_add_left (by decide) index)]
        simp [TagKind.unquotedCloser?]
      · rw [quotedCloser_quoted (ascii quote rfl) here isEscape, offset_succ,
          ih (cut?_next here) fun other isOther => ?_]
        split at isOther
        next => cases isOther
        next => exact ascii other isOther
  | case4 c rest isQuote ih =>
      have narrow : c.toNat < 128 := by rcases isQuote with rfl | rfl <;> decide
      rw [quotedCloser_plain here, if_pos isQuote, offset_succ,
        ih (cut?_next here) fun _ same => Option.some.inj same ▸ narrow]
  | case5 c rest noQuote isCloser =>
      rw [quotedCloser_plain here, if_neg noQuote, if_pos isCloser]
      rfl
  | case6 c rest noQuote noCloser ih =>
      rw [quotedCloser_plain here, if_neg noQuote, if_neg noCloser, offset_succ,
        ih (cut?_next here) (by simp)]

/-- The closer of a tag at offsets is that of the text. -/
theorem findCloser_eq (here : cut? source.text index source.size = some rest) :
    findCloser source kind index =
      some ((kind.innerLength? rest).map fun count => index + byteLength (rest.take count)) := by
  have plain : plainCloser source kind index =
      (kind.firstCloser? rest).map fun count => index + byteLength (rest.take count) := by
    rw [plainCloser, here, Option.bind_some]
  have quoted : quotedCloser source kind none index = _ := quotedCloser_eq here nofun
  cases kind with
  | comment => rw [findCloser, plain, TagKind.innerLength?]
  | interpolation | statement =>
      rw [findCloser, quoted, plain, TagKind.innerLength?]
      cases TagKind.unquotedCloser? _ none rest <;> rfl

end Closers

/-! ### Tags in texts -/

/-- The first tag among pieces that opens before a limit, or what is wrong if it is not closed. -/
def firstTag (limit : Nat) : List Piece → Except (Located Cause) (Option Tag)
  | [] => .ok none
  | .text _ _ :: rest => firstTag limit rest
  | .tag tag :: _ => .ok (if tag.start + 1 < limit then some tag else none)
  | .unclosed kind start :: _ =>
      if start + 1 < limit then .error (kind.unclosedFault start) else .ok none

/-- Text in front of pieces does not change which of their tags is the first. -/
theorem firstTag_consText (limit : Nat) (c : Char) (start : Nat) (pieces : List Piece) :
    firstTag limit (Piece.consText c start pieces) = firstTag limit pieces := by
  rcases pieces with _ | ⟨_ | _ | _, _⟩ <;> rfl

section Tags

variable {overflow : Overflow} {source : Source} {index limit : Nat} {kind : TagKind} {c : Char}
  {rest : List Char}

/-- No tag opens directly before the limit. -/
theorem nextTag_past (past : limit ≤ index + 1 ∨ source.size ≤ index + 1) :
    nextTag overflow source index limit = pure none := by
  rw [nextTag, dif_neg (by omega)]

/-- Where no tag opens, the search goes on with the next byte. -/
theorem nextTag_none (nothing : index + 1 < source.size → openerAt source index = some none) :
    nextTag overflow source index limit = nextTag overflow source (index + 1) limit := by
  by_cases within : index + 1 < min limit source.size
  · have isNone := nothing (Nat.lt_of_lt_of_le within (Nat.min_le_right _ _))
    rw [nextTag, dif_pos within, isNone]
    rfl
  · rw [nextTag_past (by omega), nextTag_past (by omega)]

/-- No tag opens with any other byte than a brace. -/
theorem openerAt_other {byte : Char} (isByte : byte? source.text index = some byte)
    (noBrace : byte ≠ '\x7b') : openerAt source index = some none := by
  simp [openerAt, isByte, noBrace]

/-- In a text without braces no tag opens. -/
theorem nextTag_noBrace (noBrace : '\x7b' ∉ bytes source.text) (index limit : Nat) :
    nextTag overflow source index limit = pure none := by
  -- Every byte is passed over, so the induction is on how many are left.
  induction isLeft : source.size - index generalizing index with
  | zero => exact nextTag_past (.inr (by omega))
  | succ left ih =>
      rw [nextTag_none fun within => ?_, ih (index + 1) (by omega)]
      obtain ⟨byte, isByte⟩ := Option.ne_none_iff_exists'.mp
        (mt byte?_eq_none_iff.mp (show ¬source.size ≤ index by omega))
      refine openerAt_other isByte ?_
      rintro rfl
      exact noBrace (List.mem_of_getElem? isByte)

/-- A tag opens at an offset when one does in the text there. -/
theorem openerAt_eq (here : cut? source.text index source.size = some (c :: rest))
    (within : index + 1 < source.size) :
    openerAt source index = some (TagKind.openedBy? c rest) := by
  have isByte := byte?_of_cut? here
  rw [TagKind.openedBy?]
  split
  next isBrace =>
    subst isBrace
    have behind := cut?_cons (by decide) here
    have isStop := stop_of_cut? behind
    cases rest with
    | nil =>
        rw [byteLength] at isStop
        omega
    | cons marker more =>
        have isMarker := byte?_of_cut? behind
        -- A marker is a byte of its own, so it is seen in the first byte of its character.
        have same : TagKind.ofMarker? (lead marker) = TagKind.ofMarker? marker := by
          simp only [TagKind.ofMarker?, lead_eq_iff (show Char.toNat '\x7b' < 128 by decide),
            lead_eq_iff (show Char.toNat '%' < 128 by decide),
            lead_eq_iff (show Char.toNat '#' < 128 by decide)]
        rw [lead_ascii (by decide)] at isByte
        simp [openerAt, isByte, isMarker, same]
  next noBrace =>
    exact openerAt_other isByte fun same => noBrace ((lead_eq_iff (by decide)).mp same)

/-- Only the marker of a form is read as it. -/
theorem eq_marker_of_ofMarker? {marker : Char} (isKind : TagKind.ofMarker? marker = some kind) :
    marker = kind.marker := by
  unfold TagKind.ofMarker? at isKind
  repeat' split at isKind
  all_goals cases isKind
  all_goals assumption

/-- What opens a tag is a brace with a marker. -/
theorem eq_of_openedBy? (opened : TagKind.openedBy? c rest = some kind) :
    c = '\x7b' ∧ rest = kind.marker :: rest.drop 1 := by
  rw [TagKind.openedBy?, Option.ite_none_right_eq_some, Option.bind_eq_some_iff] at opened
  obtain ⟨isBrace, marker, isMarker, isKind⟩ := opened
  obtain ⟨more, rfl⟩ := List.head?_eq_some_iff.mp isMarker
  rw [eq_marker_of_ofMarker? isKind]
  exact ⟨isBrace, rfl⟩

/-- The first tag from an offset on is the first one of the scan. -/
theorem nextTag_eq [overflow.Fits source] {text : List Char}
    (here : cut? source.text index source.size = some text) :
    nextTag overflow source index limit =
      found source ((Node.Parser.locate source
        (firstTag limit (Piece.scan index 0 text))).map (·.map Tag.range)) := by
  induction text generalizing index with
  | nil =>
      have isStop := stop_of_cut? here
      rw [nextTag_past (.inr (by rw [isStop]; exact Nat.le_succ _))]
      rfl
  | cons c rest ih =>
      have behind := ih (cut?_next here)
      rw [Piece.scan]
      cases opened : TagKind.openedBy? c rest with
      | none =>
          simp only [firstTag_consText]
          rw [← behind]
          -- The search goes byte by byte, and no byte of a wide character opens a tag.
          by_cases narrow : c.toNat < 128
          · rw [utf8Size_ascii narrow]
            exact nextTag_none fun within => by rw [openerAt_eq here within, opened]
          · have passed := eq_of_wide (f := (nextTag overflow source · limit))
              (fun place byte isByte wide => nextTag_none fun _ =>
                openerAt_other isByte (by rintro rfl; exact absurd wide (by decide)))
              here (Nat.le_of_not_lt narrow) (Nat.zero_le _)
            rwa [Nat.add_zero] at passed
      | some kind =>
          obtain ⟨rfl, isRest⟩ := eq_of_openedBy? opened
          have marked := cut?_cons (by decide) here
          rw [isRest] at marked
          have inner := cut?_cons (by cases kind <;> decide) marked
          have isStop := next_le_of_cut? marked
          have positive := kind.marker.utf8Size_pos
          by_cases within : index + 1 < limit
          · rw [nextTag, dif_pos (by omega), openerAt_eq here (by omega), opened]
            simp only [lift_some, pure_bind, findCloser_eq inner]
            cases kind.innerLength? (rest.drop 1) with
            | none => simp [firstTag, within, Node.Parser.locate, Except.map, TagKind.unclosedFault,
                Located.span]
            | some length => simp [firstTag, within, Node.Parser.locate, Except.map, Tag.range,
                Tag.innerStop, Tag.innerStart]
          · rw [nextTag_past (by omega)]
            dsimp only
            cases kind.innerLength? (rest.drop 1) <;>
              simp only [firstTag, if_neg within] <;> rfl

end Tags

end Checked

end TextTemplate
