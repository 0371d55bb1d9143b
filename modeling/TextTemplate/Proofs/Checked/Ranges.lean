import TextTemplate.Proofs.Checked.Tags

/-! # Pieces between offsets

Reading by offsets works on ranges of the text, where reading by pieces has lists of them. A range
that some pieces cover starts and ends where the pieces do, so that every cut that reading makes in
it is in place, and the search for tags finds their tags. -/

namespace TextTemplate

namespace Piece

/-! ### How a scan starts -/

/-- What the pieces of a text start with, and which pieces follow. -/
inductive Starts (offset : Nat) : List Char → List Piece → Prop where
  | nil : Starts offset [] []
  | text {content rest : List Char} : content ≠ [] →
      (∀ other ∈ (scan (offset + byteLength content) 0 rest).head?, other.content? = none) →
      Starts offset (content ++ rest)
        (.text content offset :: scan (offset + byteLength content) 0 rest)
  | tag {tag : Tag} {rest : List Char} : tag.start = offset →
      Starts offset (tag.kind.wrap tag.inner ++ rest) (.tag tag :: scan tag.stop 0 rest)
  | unclosed {kind : TagKind} {rest : List Char} :
      Starts offset (kind.opener ++ rest) [.unclosed kind offset]

/-- A character in front of pieces that start with no text is a text of its own. -/
theorem consText_of_noText {c : Char} {start : Nat} {pieces : List Piece}
    (noText : ∀ other ∈ pieces.head?, other.content? = none) :
    consText c start pieces = .text [c] start :: pieces := by
  rcases pieces with _ | ⟨content | tag | unclosed, rest⟩
  · rfl
  · cases noText _ rfl
  · rfl
  · rfl

/-- A scan starts with one of the pieces. -/
theorem starts_scan (offset : Nat) (text : List Char) :
    Starts offset text (scan offset 0 text) := by
  induction text generalizing offset with
  | nil => exact .nil
  | cons c rest ih =>
      cases opened : TagKind.openedBy? c rest with
      | none =>
          have behind := ih (offset + c.utf8Size)
          have isScan : scan offset 0 (c :: rest) =
              consText c offset (scan (offset + c.utf8Size) 0 rest) := by rw [scan, opened]
          -- A text takes the character in; anything else leaves it as a text of its own.
          have alone (noText : ∀ other ∈ (scan (offset + c.utf8Size) 0 rest).head?,
              other.content? = none) : Starts offset (c :: rest) (scan offset 0 (c :: rest)) := by
            rw [isScan, consText_of_noText noText]
            exact @Starts.text offset [c] rest (by simp) noText
          generalize others : scan (offset + c.utf8Size) 0 rest = pieces at *
          cases behind with
          | nil => exact alone (by simp)
          | @text content rest nonempty apart =>
              rw [isScan, consText, Nat.add_assoc]
              rw [Nat.add_assoc] at apart
              exact @Starts.text offset (c :: content) rest (by simp) apart
          | tag => exact alone (by simp [content?])
          | unclosed => exact alone (by simp [content?])
      | some kind =>
          obtain ⟨rfl, isRest⟩ := Checked.eq_of_openedBy? opened
          cases closes : kind.innerLength? (rest.drop 1) with
          | none =>
              have isScan : scan offset 0 ('\x7b' :: rest) = [.unclosed kind offset] := by
                rw [scan, opened]
                simp only [closes]
              rw [isScan, isRest]
              exact .unclosed
          | some length =>
              obtain ⟨inner, behind, isInner, rfl⟩ := TagKind.eq_of_innerLength? closes
              have isText : '\x7b' :: rest = kind.wrap inner ++ behind := by
                rw [isRest, isInner]
                simp [TagKind.wrap, TagKind.opener]
              rw [isText, scan_wrap (by rw [← isInner, closes])]
              have found := @Starts.tag offset ⟨kind, offset, inner⟩ behind rfl
              rwa [Tag.stop_eq] at found

/-! ### Whole scans -/

/-- The pieces of a text from an offset on, one after the other. -/
inductive Scans : Nat → List Char → List Piece → Prop where
  | nil {offset : Nat} : Scans offset [] []
  | text {offset : Nat} {content rest : List Char} : content ≠ [] →
      (∀ other ∈ (scan (offset + byteLength content) 0 rest).head?, other.content? = none) →
      Scans (offset + byteLength content) rest (scan (offset + byteLength content) 0 rest) →
      Scans offset (content ++ rest)
        (.text content offset :: scan (offset + byteLength content) 0 rest)
  | tag {tag : Tag} {rest : List Char} : Scans tag.stop rest (scan tag.stop 0 rest) →
      Scans tag.start (tag.kind.wrap tag.inner ++ rest) (.tag tag :: scan tag.stop 0 rest)
  /-- Nothing is scanned behind a tag that is not closed. -/
  | unclosed {offset : Nat} {kind : TagKind} {rest : List Char} :
      Scans offset (kind.opener ++ rest) [.unclosed kind offset]

/-- A scan goes on behind each piece as it starts. -/
theorem scans_scan (offset : Nat) (text : List Char) : Scans offset text (scan offset 0 text) := by
  -- By the length: a piece that others follow takes at least one character.
  induction isLength : text.length using Nat.strong_induction_on generalizing offset text with
  | _ length ih =>
  subst isLength
  generalize isScan : scan offset 0 text = pieces
  cases isScan ▸ starts_scan offset text with
  | nil => exact .nil
  | @text content rest nonempty apart =>
      have positive := List.length_pos_iff.mpr nonempty
      have shorter : rest.length < (content ++ rest).length := by
        rw [List.length_append]
        omega
      exact .text nonempty apart (ih _ shorter _ _ rfl)
  | @tag tag rest isStart =>
      subst isStart
      have shorter : rest.length < (tag.kind.wrap tag.inner ++ rest).length := by
        simp only [TagKind.wrap, TagKind.opener, List.length_append, List.length_cons]
        omega
      exact .tag (ih _ shorter _ _ rfl)
  | unclosed => exact .unclosed

/-- Every piece of a text is the first one of what is left of the text where the piece starts. -/
theorem exists_rest {source : Source} {offset stop : Nat} {text : List Char} {piece : Piece}
    (here : cut? source.text offset stop = some text) (isPiece : piece ∈ scan offset 0 text) :
    ∃ start rest others, cut? source.text start stop = some rest ∧
      Scans start rest (piece :: others) ∧ others ⊆ scan offset 0 text := by
  have scans := scans_scan offset text
  generalize scan offset 0 text = pieces at scans isPiece
  induction scans with
  | nil => cases isPiece
  | @text offset content rest nonempty apart behind ih =>
      rcases List.mem_cons.mp isPiece with rfl | isPiece
      · exact ⟨_, _, _, here, .text nonempty apart behind, List.subset_cons_self _ _⟩
      · obtain ⟨start, left, others, there, first, some⟩ := ih (cut?_right content here) isPiece
        exact ⟨start, left, others, there, first, List.subset_cons_of_subset _ some⟩
  | @tag tag rest behind ih =>
      rcases List.mem_cons.mp isPiece with rfl | isPiece
      · exact ⟨_, _, _, here, .tag behind, List.subset_cons_self _ _⟩
      · have after := cut?_right (tag.kind.wrap tag.inner) here
        rw [← Tag.stop_eq] at after
        obtain ⟨start, left, others, there, first, some⟩ := ih after isPiece
        exact ⟨start, left, others, there, first, List.subset_cons_of_subset _ some⟩
  | unclosed =>
      obtain rfl := List.mem_singleton.mp isPiece
      exact ⟨_, _, _, here, .unclosed, List.nil_subset _⟩

end Piece

namespace Checked

/-! ### Covered ranges -/

/-- Pieces that cover the range between two offsets. -/
inductive Covers (overflow : Overflow) (source : Source) : Nat → Nat → List Piece → Prop where
  | nil {stop : Nat} : Covers overflow source stop stop []
  /-- No tag opens in a text, and no text follows directly. -/
  | text {start stop : Nat} {content : List Char} {rest : List Piece} : content ≠ [] →
      cut? source.text start (start + byteLength content) = some content →
      (∀ limit, nextTag overflow source start limit =
        nextTag overflow source (start + byteLength content) limit) →
      (∀ other ∈ rest.head?, other.content? = none) →
      Covers overflow source (start + byteLength content) stop rest →
      Covers overflow source start stop (.text content start :: rest)
  | tag {tag : Tag} {stop : Nat} {rest : List Piece} :
      cut? source.text tag.innerStart tag.innerStop = some tag.inner →
      (∀ limit, tag.start + 1 < limit →
        nextTag overflow source tag.start limit = pure (some tag.range)) →
      Covers overflow source tag.stop stop rest →
        Covers overflow source tag.start stop (.tag tag :: rest)
  | unclosed {kind : TagKind} {start stop : Nat} : start < stop →
      nextTag overflow source start stop =
        failAt overflow source (.unclosedTag kind) start (start + 2) →
      Covers overflow source start stop [.unclosed kind start]

variable {overflow : Overflow} {source : Source} {start stop : Nat} {pieces rest : List Piece}

/-- A range does not end before it starts. -/
theorem Covers.le (covers : Covers overflow source start stop pieces) : start ≤ stop := by
  induction covers with
  | nil => exact Nat.le_refl _
  | text _ _ _ _ _ ih => exact Nat.le_trans (Nat.le_add_right _ _) ih
  | tag _ _ _ ih =>
      refine Nat.le_trans ?_ ih
      simp only [Tag.stop, Tag.innerStop, Tag.innerStart]
      omega
  | unclosed lt => exact Nat.le_of_lt lt

/-- There are no more pieces than bytes in a range. -/
theorem Covers.length_le (covers : Covers overflow source start stop pieces) :
    start + pieces.length ≤ stop := by
  induction covers with
  | nil => exact Nat.le_refl _
  | @text start stop content rest nonempty _ _ _ _ ih =>
      have positive := mt byteLength_eq_zero_iff.mp nonempty
      rw [List.length_cons]
      omega
  | tag _ _ _ ih =>
      simp only [Tag.stop, Tag.innerStop, Tag.innerStart] at ih
      rw [List.length_cons]
      omega
  | unclosed lt => exact lt

/-- A range that some piece covers is not empty. -/
theorem Covers.lt {piece : Piece} (covers : Covers overflow source start stop (piece :: rest)) :
    start < stop :=
  Nat.lt_of_lt_of_le (Nat.lt_add_of_pos_right (Nat.succ_pos _)) covers.length_le

/-- Only an empty range is covered by no pieces. -/
theorem Covers.stop_of_nil (covers : Covers overflow source start stop []) : start = stop := by
  cases covers
  rfl

/-- A text starts where its range does, and no other text follows. -/
theorem Covers.next_text {content : List Char} {place : Nat}
    (covers : Covers overflow source start stop (.text content place :: rest)) :
    place = start ∧ (∀ other ∈ rest.head?, other.content? = none) ∧
      Covers overflow source (start + byteLength content) stop rest := by
  cases covers with
  | text _ _ _ apart covers => exact ⟨rfl, apart, covers⟩

/-- A tag that is not closed is found to be so, and nothing comes behind it. -/
theorem Covers.next_unclosed {kind : TagKind} {place : Nat}
    (covers : Covers overflow source start stop (.unclosed kind place :: rest)) :
    start < stop ∧
      nextTag overflow source start stop =
        failAt overflow source (.unclosedTag kind) start (start + 2) ∧
      place = start ∧ rest = [] := by
  cases covers with
  | unclosed inside unclosed => exact ⟨inside, unclosed, rfl, rfl⟩

/-- The pieces of the rest of a source cover it. -/
theorem covers_scan [overflow.Fits source] {text : List Char}
    (here : cut? source.text start source.size = some text) :
    Covers overflow source start source.size (Piece.scan start 0 text) := by
  have scans := Piece.scans_scan start text
  -- The search for tags is stated for every limit, since the limits of ranges inside are smaller.
  have next (limit : Nat) := @nextTag_eq overflow source start limit _ text here
  generalize Piece.scan start 0 text = pieces at scans next
  induction scans with
  | nil =>
      rw [stop_of_cut? here]
      exact .nil
  | @text start content rest nonempty apart _ ih =>
      have behind := cut?_right content here
      refine .text nonempty (cut?_left content here) (fun limit => ?_) apart
        (ih behind fun limit => nextTag_eq behind)
      rw [next, nextTag_eq behind]
      rfl
  | @tag tag rest _ ih =>
      have behind := cut?_right (tag.kind.wrap tag.inner) here
      rw [← Tag.stop_eq] at behind
      refine .tag ?_ (fun limit within => ?_) (ih behind fun limit => nextTag_eq behind)
      · rw [TagKind.wrap, List.append_assoc, List.append_assoc] at here
        have inner := cut?_left tag.inner (cut?_right tag.kind.opener here)
        rwa [TagKind.byteLength_opener] at inner
      · rw [next, firstTag, if_pos within]
        rfl
  | @unclosed start kind rest =>
      have isStop := stop_of_cut? here
      rw [byteLength_append, TagKind.byteLength_opener] at isStop
      refine .unclosed (by omega) ?_
      rw [next, firstTag, if_pos (by omega), failAt_eq]
      rfl

/-- A tag among pieces divides their range. -/
theorem Covers.divide {tag : Tag}
    (covers : Covers overflow source start stop (pieces ++ .tag tag :: rest)) :
    Covers overflow source start tag.start pieces ∧
      Covers overflow source tag.start stop (.tag tag :: rest) := by
  induction pieces generalizing start with
  | nil =>
      cases covers with
      | tag inner next covers => exact ⟨.nil, .tag inner next covers⟩
  | cons piece pieces ih =>
      rw [List.cons_append] at covers
      generalize others : pieces ++ .tag tag :: rest = behind at covers
      cases covers with
      | @text _ _ content _ nonempty here passes apart covers =>
          subst others
          obtain ⟨before, after⟩ := ih covers
          refine ⟨.text nonempty here passes (fun other isOther => apart other ?_) before, after⟩
          rw [List.head?_append, Option.mem_def.mp isOther]
          rfl
      | tag inner next covers =>
          subst others
          obtain ⟨before, after⟩ := ih covers
          exact ⟨.tag inner next before, after⟩
      | unclosed => simp at others

end Checked

end TextTemplate
