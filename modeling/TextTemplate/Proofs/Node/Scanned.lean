import TextTemplate.Proofs.Node.Reading
import TextTemplate.Proofs.Text.Bytes

/-! # What a scan leaves

A scan leaves no empty text, no two texts next to each other and no text in which a tag opens, and
the inner text of a tag ends where the first closer after it stands. Pieces that are like this are
found again when they are written one after the other. -/

namespace TextTemplate

/-! ### Closers -/

namespace TagKind

/-- A tag of a form around an inner text. -/
def wrap (kind : TagKind) (inner : List Char) : List Char := kind.opener ++ inner ++ kind.closer

variable {kind : TagKind} {text : List Char} {length : Nat}

/-- A closer is its mark and a brace. -/
theorem isPrefixOf_closer {c : Char} :
    kind.closer.isPrefixOf (c :: text) = true ↔ c = kind.closingMarker ∧ text.head? = some '\x7d' := by
  cases text with
  | nil => simp [closer, List.isPrefixOf]
  | cons d rest =>
      simp only [closer, List.isPrefixOf, Bool.and_true, Bool.and_eq_true, beq_iff_eq,
        List.head?_cons, Option.some.injEq]
      exact and_congr eq_comm eq_comm

/-- A closer at the very start starts with its marker. -/
theorem head?_of_firstCloser? (found : kind.firstCloser? text = some 0) :
    text.head? = some kind.closingMarker := by
  cases text with
  | nil => cases found
  | cons c rest =>
      rw [firstCloser?] at found
      split at found
      next here => rw [List.head?_cons, (isPrefixOf_closer.mp here).1]
      next => simp at found

/-- What stands behind the first closer does not matter. -/
theorem firstCloser?_take (found : kind.firstCloser? text = some length) (rest : List Char) :
    kind.firstCloser? (text.take length ++ (kind.closer ++ rest)) =
      some (text.take length).length := by
  induction text generalizing length with
  | nil => cases found
  | cons c more ih =>
      rw [firstCloser?] at found
      split at found
      next =>
        cases found
        cases kind <;> simp [firstCloser?, closer, closingMarker]
      next notHere =>
        obtain ⟨before, there, rfl⟩ := Option.map_eq_some_iff.mp found
        -- No closer may arise where the text was cut. Whether one stands here depends on the next
        -- character only, and that is the same: when nothing is left of the text it is the marker.
        have sameHead : (more.take before ++ (kind.closer ++ rest)).head? = more.head? := by
          cases before with
          | zero => simp [head?_of_firstCloser? there, closer]
          | succ before => cases more <;> simp at there ⊢; cases there
        rw [List.take_succ_cons, List.cons_append, firstCloser?, if_neg, ih there]
        · rfl
        · rwa [isPrefixOf_closer, sameHead, ← isPrefixOf_closer]

end TagKind

/-- What opens a tag takes two bytes. -/
theorem TagKind.byteLength_opener (kind : TagKind) : byteLength kind.opener = 2 := by
  cases kind <;> decide

/-- So does what closes it. -/
theorem TagKind.byteLength_closer (kind : TagKind) : byteLength kind.closer = 2 := by
  cases kind <;> decide

/-- A tag ends with its closer. -/
theorem Tag.stop_eq (tag : Tag) :
    tag.stop = tag.start + byteLength (tag.kind.wrap tag.inner) := by
  rw [TagKind.wrap, byteLength_append, byteLength_append, TagKind.byteLength_opener,
    TagKind.byteLength_closer]
  simp only [Tag.stop, Tag.innerStop, Tag.innerStart, Nat.add_assoc]

/-! ### Texts -/

/-- Whether no tag opens in a text that a character follows, or nothing. -/
def Untagged (following : Option Char) : List Char → Prop
  | [] => True
  | c :: rest =>
      TagKind.openedBy? c (rest ++ following.toList) = none ∧ Untagged following rest

/-- Whether a tag opens depends on the next character only. -/
theorem openedBy?_congr {c : Char} {rest rest' : List Char} (same : rest.head? = rest'.head?) :
    TagKind.openedBy? c rest = TagKind.openedBy? c rest' := by
  rw [TagKind.openedBy?, TagKind.openedBy?, same]

/-- Whether texts, here with nothing for each tag between them, are such as a scan leaves. -/
def Apart : List (Option (List Char)) → Prop
  | [] => True
  | none :: rest => Apart rest
  | some content :: rest =>
      content ≠ [] ∧ Untagged (rest.head?.map fun _ => '\x7b') content ∧
        (∀ other ∈ rest.head?, other = none) ∧ Apart rest

/-- The content of a text. -/
def Piece.content? : Piece → Option (List Char)
  | .text content _ => some content
  | .tag _ | .unclosed _ _ => none

namespace Piece

/-- The character that a piece starts with. -/
def first? : Option (List Char) → Option Char
  | some content => content.head?
  | none => some '\x7b'

variable {offset skip : Nat} {text : List Char}

/-- A text in front of pieces becomes a part of the text that they start with. -/
theorem content_consText (c : Char) (start : Nat) (pieces : List Piece) :
    (consText c start pieces).map content? =
      match pieces.map content? with
      | some content :: rest => some (c :: content) :: rest
      | others => some [c] :: others := by
  cases pieces with
  | nil => rfl
  | cons piece rest => cases piece <;> rfl

/-- The first piece starts as the text does. -/
theorem first_of_scan (offset : Nat) (text : List Char) :
    ((scan offset 0 text).map content?).head?.bind first? = text.head? := by
  cases text with
  | nil => rfl
  | cons c rest =>
      rw [scan]
      split
      next =>
        rw [content_consText]
        split <;> rfl
      next opened =>
        unfold TagKind.openedBy? at opened
        split at opened
        next brace =>
          subst brace
          split <;> rfl
        next => cases opened

/-- The texts of a scan are apart. -/
theorem apart_scan (offset skip : Nat) (text : List Char) :
    Apart ((scan offset skip text).map content?) := by
  induction text generalizing offset skip with
  | nil => trivial
  | cons c rest ih =>
      cases skip with
      | succ skip => exact ih _ _
      | zero =>
          rw [scan]
          split
          next plain =>
            have tail := ih (offset + c.utf8Size) 0
            have first := first_of_scan (offset + c.utf8Size) rest
            rw [content_consText]
            -- What the rest starts with decides: nothing or a tag ends this text, a text takes the
            -- character in.
            generalize (scan (offset + c.utf8Size) 0 rest).map content? = contents at tail first
            cases contents with
            | nil =>
                refine ⟨by simp, ⟨?_, trivial⟩, by simp, trivial⟩
                rw [← plain]
                exact openedBy?_congr (by simpa using first)
            | cons content others =>
                cases content with
                | none =>
                    refine ⟨by simp, ⟨?_, trivial⟩, by simp, tail⟩
                    rw [← plain]
                    exact openedBy?_congr (by simpa [first?] using first)
                | some content =>
                    obtain ⟨nonempty, untagged, alone, rest⟩ := tail
                    refine ⟨by simp, ⟨?_, untagged⟩, alone, rest⟩
                    rw [← plain]
                    refine openedBy?_congr ?_
                    obtain ⟨d, more, rfl⟩ := List.exists_cons_of_ne_nil nonempty
                    simpa [first?] using first
          next =>
            split
            next => trivial
            next => exact ih _ _

/-! ### Tags -/

/-- The inner text of a tag ends at a closer. -/
theorem closer_of_scan {tag : Tag} (found : .tag tag ∈ scan offset skip text) :
    ∃ behind length, tag.kind.innerLength? behind = some length ∧ tag.inner = behind.take length := by
  induction text generalizing offset skip with
  | nil => cases found
  | cons c rest ih =>
      cases skip with
      | succ skip => exact ih found
      | zero =>
          rw [scan] at found
          split at found
          next => exact ih (mem_consText.mp found)
          next kind _ =>
            split at found
            next => simp at found
            next length closes =>
              rcases List.mem_cons.mp found with here | later
              · cases here
                exact ⟨_, _, closes, rfl⟩
              · exact ih later

/-- The inner text of a comment holds no closer. -/
theorem firstCloser?_of_scan {tag : Tag} (found : .tag tag ∈ scan offset skip text)
    (isComment : tag.kind = .comment) (rest : List Char) :
    TagKind.comment.firstCloser? (tag.inner ++ (TagKind.comment.closer ++ rest)) =
      some tag.inner.length := by
  obtain ⟨behind, length, closes, inner⟩ := closer_of_scan found
  rw [isComment] at closes
  rw [inner]
  exact TagKind.firstCloser?_take closes rest

/-- What a tag has taken is passed over. -/
theorem scan_skip (offset : Nat) (taken rest : List Char) :
    scan offset taken.length (taken ++ rest) = scan (offset + byteLength taken) 0 rest := by
  induction taken generalizing offset with
  | nil => rfl
  | cons c taken ih => rw [List.cons_append, List.length_cons, scan, ih, byteLength, Nat.add_assoc]

/-- A tag that is closed where its inner text ends is found. -/
theorem scan_wrap {kind : TagKind} {inner rest : List Char}
    (closes : kind.innerLength? (inner ++ (kind.closer ++ rest)) = some inner.length)
    (offset : Nat) :
    scan offset 0 (kind.wrap inner ++ rest) =
      .tag ⟨kind, offset, inner⟩ :: scan (offset + byteLength (kind.wrap inner)) 0 rest := by
  have split : kind.wrap inner ++ rest =
      '\x7b' :: kind.marker :: (inner ++ (kind.closer ++ rest)) := by
    simp [TagKind.wrap, TagKind.opener]
  -- The brace is one step of the scan. The marker, the inner text and the closer are passed over.
  have opened : TagKind.openedBy? '\x7b' (kind.marker :: (inner ++ (kind.closer ++ rest))) =
      some kind := by
    cases kind <;> rfl
  have skipped := scan_skip (offset + ('\x7b' : Char).utf8Size)
    (kind.marker :: (inner ++ kind.closer)) rest
  have length : (kind.marker :: (inner ++ kind.closer)).length = inner.length + 3 := by
    simp [TagKind.closer]
  rw [length, List.cons_append, List.append_assoc] at skipped
  rw [split, scan, opened]
  simp only [List.drop_succ_cons, List.drop_zero, closes, List.take_left, skipped]
  simp [TagKind.wrap, TagKind.opener, byteLength, Nat.add_assoc]

/-- A text in which no tag opens is found. -/
theorem scan_text {content rest : List Char} (nonempty : content ≠ [])
    (untagged : Untagged rest.head? content)
    (alone : ∀ offset, ∀ other ∈ ((scan offset 0 rest).map content?).head?, other = none)
    (offset : Nat) :
    scan offset 0 (content ++ rest) =
      .text content offset :: scan (offset + byteLength content) 0 rest := by
  induction content generalizing offset with
  | nil => exact absurd rfl nonempty
  | cons c more ih =>
      have plain : TagKind.openedBy? c (more ++ rest) = none := by
        rw [← untagged.1]
        exact openedBy?_congr (by cases more <;> cases rest <;> rfl)
      rw [List.cons_append, scan, plain]
      show consText c offset (scan (offset + c.utf8Size) 0 (more ++ rest)) = _
      cases more with
      | nil =>
          -- Behind the last character there is no text that it could become a part of.
          have others := alone (offset + c.utf8Size)
          rw [List.nil_append]
          unfold consText
          split
          next found =>
            rw [found] at others
            exact absurd (others _ rfl) (by simp [content?])
          next => simp [byteLength]
      | cons d more =>
          rw [ih (by simp) untagged.2]
          simp [consText, byteLength, Nat.add_assoc]

end Piece

end TextTemplate
