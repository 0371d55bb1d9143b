import TextTemplate.Proofs.Source.Places

/-! # Lines by their numbers

The line of a number is what stands between the line feed in front of it and the next one. A line
feed divides the lines of a text, so the number of a line counts the line feeds in front of it: the
line of a position is the one that its offset lies in. -/

namespace TextTemplate.Source

variable {source : Source} {before after line : List Char} {number : Nat}

/-! ### Lines of texts -/

/-- A line feed divides the lines of a text. -/
theorem lines_feed (left right : List Char) :
    lines (left ++ '\n' :: right) = lines left ++ lines right := by
  induction left with
  | nil => rfl
  | cons c left ih =>
      rw [List.cons_append, lines, lines, ih]
      by_cases isFeed : c = '\n'
      · rw [if_pos isFeed, if_pos isFeed, List.cons_append]
      · rw [if_neg isFeed, if_neg isFeed]
        cases others : lines left with
        | nil =>
            -- Every text has a line, be it an empty one.
            have length := Checked.length_lines 0 left
            rw [others] at length
            cases length
        | cons line others => rfl

/-- There is one line more than line feeds. -/
theorem length_lines_eq_count (text : List Char) : (lines text).length = text.count '\n' + 1 := by
  induction text with
  | nil => rfl
  | cons c rest ih =>
      by_cases isFeed : c = '\n'
      · have divided := lines_feed [] rest
        rw [List.nil_append] at divided
        rw [isFeed, divided, List.length_append, ih, List.count_cons_self]
        exact Nat.add_comm 1 _
      · rw [List.count_cons_of_ne isFeed, ← ih, lines, if_neg isFeed]
        cases others : lines rest with
        | nil => rw [others] at ih; cases ih
        | cons line others => rfl

/-- What stands in front of the first line feed is the first line. -/
theorem head?_lines (noFeed : '\n' ∉ line) (ends : ∀ c ∈ after.head?, c = '\n') :
    (lines (line ++ after)).head? = some line := by
  cases after with
  | nil => rw [List.append_nil, Checked.lines_eq noFeed]; rfl
  | cons c rest =>
      obtain rfl := ends c rfl
      rw [Checked.lines_append noFeed]
      rfl

/-! ### Lines of a source -/

/-- Whether a text is the line of a number in a source. It starts with the source or behind a line
feed, and ends with the source or in front of a line feed. -/
def IsLine (source : Source) (number : Nat) (line : List Char) : Prop :=
  ∃ before after, source.text = before ++ (line ++ after) ∧ number = 1 + before.count '\n' ∧
    lastLine before = [] ∧ '\n' ∉ line ∧ ∀ c ∈ after.head?, c = '\n'

/-- The line of a number is found by it. -/
theorem IsLine.line?_eq (isLine : source.IsLine number line) :
    source.line? number = some (dropReturns line) := by
  obtain ⟨before, after, isText, rfl, isStart, noFeed, ends⟩ := isLine
  have first := head?_lines noFeed ends
  have found : (lines source.text)[before.count '\n']? = some line := by
    rw [isText]
    rcases List.eq_nil_or_concat' before with rfl | ⟨others, c, rfl⟩
    · rwa [List.nil_append, List.count_nil, ← List.head?_eq_getElem?]
    · -- The character in front of the line is a line feed, or it would belong to the line.
      have isFeed : c = '\n' := by
        by_contra other
        rw [lastLine_append (by simpa using Ne.symm other)] at isStart
        exact List.cons_ne_nil _ _ (List.append_eq_nil_iff.mp isStart).2
      rw [isFeed, List.append_assoc, List.singleton_append, lines_feed, List.count_append,
        List.count_singleton_self, ← length_lines_eq_count,
        List.getElem?_append_right (Nat.le_refl _), Nat.sub_self, ← List.head?_eq_getElem?, first]
  rw [line?, if_neg (by omega), Nat.add_sub_cancel_left, found, Option.map_some]

/-- Every edge of a character lies in the line whose number counts the line feeds in front of it. -/
theorem exists_isLine (isText : source.text = before ++ after) :
    ∃ line, source.IsLine (1 + before.count '\n') line := by
  -- The line goes from the last line feed in front of the edge to the first one behind it.
  have split : before = before.rdropWhile (· ≠ '\n') ++ lastLine before :=
    List.rdropWhile_append_rtakeWhile.symm
  have noFeedBefore : '\n' ∉ lastLine before := by
    intro isMember
    have other := List.mem_rtakeWhile_imp isMember
    simp at other
  have noFeedAfter : '\n' ∉ after.takeWhile (· ≠ '\n') := by
    intro isMember
    have other := List.all_eq_true.mp List.all_takeWhile _ isMember
    simp at other
  refine ⟨lastLine before ++ after.takeWhile (· ≠ '\n'), before.rdropWhile (· ≠ '\n'),
    after.dropWhile (· ≠ '\n'), ?_, ?_, ?_, ?_, ?_⟩
  · rw [List.append_assoc, List.takeWhile_append_dropWhile, ← List.append_assoc, ← split, isText]
  · conv_lhs => rw [split, List.count_append, List.count_eq_zero_of_not_mem noFeedBefore]
    rfl
  · refine List.rtakeWhile_eq_nil_iff.mpr fun nonempty => ?_
    exact List.rdropWhile_last_not _ _ nonempty
  · rw [List.mem_append]
    exact not_or.mpr ⟨noFeedBefore, noFeedAfter⟩
  · intro c isHead
    have stops := List.head?_dropWhile_not (fun c => decide (c ≠ '\n')) after
    rw [isHead] at stops
    simpa using stops

end TextTemplate.Source
