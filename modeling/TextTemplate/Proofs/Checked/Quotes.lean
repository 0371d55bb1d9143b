import TextTemplate.Proofs.Checked.Scanners
import TextTemplate.Proofs.Checked.Tags
import TextTemplate.Proofs.Node.Faults
import TextTemplate.Template

/-! # Where strings end

Both the search for the closer of a tag and the cutting of strings look for the quote that ends a
string. The one goes forward and takes the byte behind each backslash with it; the other looks back
at the backslashes before each quote, and counts them. They find the same quote. So when the search
finds no closer outside of quotes, the tag is not one that says something. -/

namespace TextTemplate

namespace Checked

variable (source : Source)

/-! ### Forwards -/

variable {source} in
/-- There are no bytes behind the end. -/
theorem lt_of_byte? {index : Nat} {byte : Char} (isByte : byte? source.text index = some byte) :
    index < source.size :=
  Nat.lt_of_not_le fun past => by rw [byte?_eq_none_iff.mpr past] at isByte; cases isByte

/-- The offset of the quote that ends a string, from an offset inside of it on. A backslash takes
the next byte with it. -/
def quoteEnd? (quote : Char) (index : Nat) : Option Nat :=
  match _here : byte? source.text index with
  | some byte =>
      if byte = '\\' then quoteEnd? quote (index + 2)
      else if byte = quote then some index
      else quoteEnd? quote (index + 1)
  | none => none
termination_by source.size - index
decreasing_by
  all_goals
    have := lt_of_byte? _here
    omega

variable {source} {quote : Char} {index : Nat}

/-- What the search does with a byte inside of a string. -/
theorem quoteEnd?_step {byte : Char} (isByte : byte? source.text index = some byte) :
    quoteEnd? source quote index =
      if byte = '\\' then quoteEnd? source quote (index + 2)
      else if byte = quote then some index
      else quoteEnd? source quote (index + 1) := by
  rw [quoteEnd?]
  split
  next other isOther => rw [Option.some.inj (isByte.symm.trans isOther)]
  next noByte => cases isByte.symm.trans noByte

/-- A string does not end before an offset inside of it. -/
theorem le_of_quoteEnd? {close : Nat} (ends : quoteEnd? source quote index = some close) :
    index ≤ close := by
  fun_induction quoteEnd? source quote index with
  | case1 index isEscape ih => exact Nat.le_trans (Nat.le_add_right _ _) (ih ends)
  | case2 => exact Nat.le_of_eq (Option.some.inj ends)
  | case3 index byte isByte noEscape noQuote ih => exact Nat.le_trans (Nat.le_succ _) (ih ends)
  | case4 => cases ends

/-- The search for a closer leaves a string where it ends, and finds nothing when it does not. -/
theorem quotedCloser_quoteEnd? (kind : TagKind) :
    quotedCloser source kind (some quote) index =
      (quoteEnd? source quote index).elim (some none) fun close =>
        quotedCloser source kind none (close + 1) := by
  fun_induction quoteEnd? source quote index with
  | case1 index isEscape ih =>
      rw [quotedCloser, dif_pos (lt_of_byte? isEscape), isEscape]
      simpa using ih
  | case2 index isQuote noEscape =>
      rw [quotedCloser, dif_pos (lt_of_byte? isQuote), isQuote]
      simp [noEscape]
  | case3 index byte isByte noEscape noQuote ih =>
      rw [quotedCloser, dif_pos (lt_of_byte? isByte), isByte]
      simpa [noEscape, noQuote] using ih
  | case4 index noByte => exact quotedCloser_past (byte?_eq_none_iff.mp noByte)

/-- A quote outside of strings opens one. -/
theorem quotedCloser_quote (kind : TagKind) (isQuote : quote = '"' ∨ quote = '\'')
    (here : byte? source.text index = some quote) :
    quotedCloser source kind none index = quotedCloser source kind (some quote) (index + 1) := by
  rw [quotedCloser, dif_pos (lt_of_byte? here), here]
  simp [isQuote]

/-! ### Backwards -/

/-- The bytes from one offset to another. -/
def bytesBetween (text : List Char) (first index : Nat) : List Char :=
  ((bytes text).take index).drop first

/-- With a byte more, the bytes up to an offset end with that byte. -/
theorem bytesBetween_succ {text : List Char} {byte : Char} {first : Nat} (le : first ≤ index)
    (isByte : byte? text index = some byte) :
    bytesBetween text first (index + 1) = bytesBetween text first index ++ [byte] := by
  obtain ⟨fits, -⟩ := List.getElem?_eq_some_iff.mp isByte
  have length : ((bytes text).take index).length = index := by
    rw [List.length_take, Nat.min_eq_left (Nat.le_of_lt fits)]
  rw [bytesBetween, bytesBetween, List.take_add_one, show (bytes text)[index]? = some byte from isByte,
    Option.toList_some, List.drop_append_of_le_length (by rwa [length])]

/-- Looking for a quote goes on behind each byte that is none, or that is one behind an odd number
of backslashes. -/
theorem closingQuote_step {stop first : Nat} {byte : Char} (within : index < stop)
    (le : first ≤ index) (isByte : byte? source.text index = some byte) :
    closingQuote source stop quote first index =
      if byte = quote ∧ trailing (bytesBetween source.text first index) % 2 = 0 then
        some (some index)
      else closingQuote source stop quote first (index + 1) := by
  have run : backslashesBefore source.text first index =
      some (trailing (bytesBetween source.text first index)) :=
    if_pos ⟨le, Nat.le_of_lt (lt_of_byte? isByte)⟩
  rw [closingQuote, dif_pos within, isByte, run]
  by_cases same : byte = quote <;> simp [same]

/-- Behind the end of a range no quote is found, and none of the range ends the string. -/
theorem closingQuote_past {stop first after : Nat} (past : stop ≤ index) (le : index ≤ after) :
    closingQuote source stop quote first index =
      some ((quoteEnd? source quote after).filter (· < stop)) := by
  rw [closingQuote, dif_neg (Nat.not_lt.mpr past), Option.some.injEq, eq_comm,
    Option.filter_eq_none_iff]
  intro close ends
  have := le_of_quoteEnd? ends
  rw [decide_eq_true_eq]
  omega

/-- The first quote behind an even number of backslashes is the one that ends the string. -/
theorem closingQuote_quoteEnd? {stop first : Nat} (noEscape : quote ≠ '\\')
    (fits : stop ≤ source.size) (le : first ≤ index)
    (even : trailing (bytesBetween source.text first index) % 2 = 0) :
    closingQuote source stop quote first index =
      some ((quoteEnd? source quote index).filter (· < stop)) := by
  -- The cases are those of the way forwards: a backslash, the quote, and any other byte.
  fun_induction quoteEnd? source quote index with
  | case1 index isEscape ih =>
      by_cases within : index < stop
      · have behind := bytesBetween_succ le isEscape
        rw [closingQuote_step within le isEscape, if_neg (fun both => noEscape both.1.symm)]
        by_cases second : index + 1 < stop
        · obtain ⟨byte, isByte⟩ : ∃ byte, byte? source.text (index + 1) = some byte :=
            Option.ne_none_iff_exists'.mp fun noByte => by
              have := byte?_eq_none_iff.mp noByte
              rw [Source.size] at fits
              omega
          have le' : first ≤ index + 1 := Nat.le_succ_of_le le
          -- Behind one backslash more their number is odd, and behind the next byte it is even.
          have odd : trailing (bytesBetween source.text first (index + 1)) % 2 = 1 := by
            rw [behind, trailing_concat, if_pos rfl]
            omega
          rw [closingQuote_step second le' isByte, if_neg (fun both => by omega)]
          refine ih (by omega) ?_
          rw [bytesBetween_succ le' isByte, trailing_concat]
          split <;> omega
        · exact closingQuote_past (Nat.le_of_not_lt second) (Nat.le_succ _)
      · exact closingQuote_past (Nat.le_of_not_lt within) (Nat.le_add_right _ _)
  | case2 index isQuote isOther =>
      by_cases within : index < stop
      · rw [closingQuote_step within le isQuote, if_pos ⟨rfl, even⟩]
        simp [Option.filter, within]
      · rw [closingQuote, dif_neg within]
        simp [Option.filter, within]
  | case3 index byte isByte isOther noQuote ih =>
      by_cases within : index < stop
      · rw [closingQuote_step within le isByte, if_neg (fun both => noQuote both.1)]
        refine ih (Nat.le_succ_of_le le) ?_
        rw [bytesBetween_succ le isByte, trailing_concat, if_neg isOther]
      · exact closingQuote_past (Nat.le_of_not_lt within) (Nat.le_succ _)
  | case4 index noByte =>
      have past := byte?_eq_none_iff.mp noByte
      rw [closingQuote, dif_neg (by rw [Source.size] at fits; omega)]
      rfl

end Checked

/-! ### Tags whose closer stands inside of quotes -/

section Tags

variable {source : Source} {limits : Limits} {tag : Tag} {nodes : List Node}

/-- From its opener on a tag is followed by its inner text, its closer and the rest. -/
theorem Source.exists_rest (isPiece : .tag tag ∈ source.pieces) : ∃ rest,
    cut? source.text tag.innerStart source.size =
      some (tag.inner ++ (tag.kind.closer ++ rest)) := by
  obtain ⟨before, after, isText, isStart, -⟩ := exists_of_cut? (cut?_tag isPiece)
  refine ⟨after, cut?_of_parts (before ++ tag.kind.opener) [] ?_ ?_ ?_⟩
  · rw [isText, TagKind.wrap]
    simp
  · rw [byteLength_append, isStart, TagKind.byteLength_opener]
    rfl
  · rw [Source.size, isText, TagKind.wrap]
    simp only [byteLength_append, isStart, TagKind.byteLength_opener, Tag.innerStart]
    omega

/-- In a source that can be read, every tag but a comment ends at a closer outside of quotes. -/
theorem Source.quotedCloser_of_nodes (reads : source.nodes limits = .ok nodes)
    (isPiece : .tag tag ∈ source.pieces) (isQuoting : tag.kind ≠ .comment) :
    Checked.quotedCloser source tag.kind none tag.innerStart = some (some tag.innerStop) := by
  obtain ⟨events, said, -⟩ := Source.nodes_iff_body.mp reads
  obtain ⟨event, here⟩ := said.exists_event _ isPiece
  obtain ⟨rest, isRest⟩ := Source.exists_rest isPiece
  have found : Checked.quotedCloser source tag.kind none tag.innerStart = _ :=
    Checked.quotedCloser_eq isRest nofun
  rw [found, closes_of_event here isQuoting]
  simp [Tag.innerStop]

/-- In a source that can be read, every tag is closed. -/
theorem Source.closed_of_nodes {kind : TagKind} {start : Nat}
    (reads : source.nodes limits = .ok nodes) : .unclosed kind start ∉ source.pieces := by
  intro isPiece
  obtain ⟨events, said, -⟩ := Source.nodes_iff_body.mp reads
  obtain ⟨event, here⟩ := said.exists_event _ isPiece
  cases here

/-- A source gives no template unless it can be read. -/
theorem Template.exists_error (unread : ∀ nodes, source.nodes limits ≠ .ok nodes) :
    ∃ diagnostic, Template.compile source limits = .error diagnostic := by
  rw [Template.compile]
  cases reads : source.nodes limits with
  | ok nodes => exact absurd reads (unread nodes)
  | error fault => exact ⟨_, rfl⟩

end Tags

/-- A string ends at the same quote for the search for closers and for the cutting of tokens, and a
tag whose closer is not found outside of strings is an error. Whatever range of the source a string
opens in, the search goes on behind the quote that `Checked.quoteEnd?` finds, or ends without a
closer when there is none; and the token ends with that quote if it stands in the range, or is not
closed. When the search finds no closer for one of the tags of the source, other than a comment, so
that the first closer of all is taken or the tag stays open, the source gives no template. -/
theorem Source.strings_end_alike (source : Source) :
    (∀ quote start stop, (quote = '"' ∨ quote = '\'') → byte? source.text start = some quote →
      start < stop → stop ≤ source.size →
        (∀ kind, Checked.quotedCloser source kind none start =
          (Checked.quoteEnd? source quote (start + 1)).elim (some none) fun close =>
            Checked.quotedCloser source kind none (close + 1)) ∧
        Checked.closingQuote source stop quote (start + 1) (start + 1) =
          some ((Checked.quoteEnd? source quote (start + 1)).filter (· < stop))) ∧
    ∀ limits,
      (∀ tag, .tag tag ∈ source.pieces → tag.kind ≠ .comment →
        Checked.quotedCloser source tag.kind none tag.innerStart = some none →
          ∃ diagnostic, Template.compile source limits = .error diagnostic) ∧
      ∀ kind start, .unclosed kind start ∈ source.pieces →
        ∃ diagnostic, Template.compile source limits = .error diagnostic := by
  refine ⟨fun quote start stop isQuote here within fits => ⟨fun kind => ?_, ?_⟩,
    fun limits => ⟨fun tag isPiece isQuoting isOpen => ?_, fun kind start isPiece => ?_⟩⟩
  · -- The search for closers goes on behind the quote.
    rw [Checked.quotedCloser_quote kind isQuote here, Checked.quotedCloser_quoteEnd?]
  · have noEscape : quote ≠ '\\' := by rcases isQuote with rfl | rfl <;> decide
    -- No byte lies between the opening quote and the start of the search, so none is an escape.
    have nothing : Checked.bytesBetween source.text (start + 1) (start + 1) = [] :=
      List.drop_eq_nil_of_le (List.length_take_le _ _)
    exact Checked.closingQuote_quoteEnd? noEscape fits (Nat.le_refl _) (by rw [nothing]; rfl)
  · refine Template.exists_error fun nodes reads => ?_
    rw [Source.quotedCloser_of_nodes reads isPiece isQuoting] at isOpen
    cases isOpen
  · exact Template.exists_error fun nodes reads => Source.closed_of_nodes reads isPiece

/-- A string with an escaped quote in it, in a tag where another string is left open. -/
theorem Source.strings_end_alike_of_escape :
    let source : Source := .ofString "page" "\x7b\x7b '\\'' + \"b \x7d\x7d"
    let tag : Tag := ⟨.interpolation, 0, " '\\'' + \"b ".toList⟩
    (byte? source.text 3 = some '\'' ∧ .tag tag ∈ source.pieces ∧
      Checked.quotedCloser source tag.kind none tag.innerStart = some none) ∧
      Checked.quoteEnd? source '\'' 4 = some 6 ∧
      Checked.closingQuote source 12 '\'' 4 4 = some (some 6) ∧
      ∃ diagnostic, Template.compile source {} = .error diagnostic := by
  intro source tag
  have opens : byte? source.text 3 = some '\'' := by decide
  have isPiece : .tag tag ∈ source.pieces := by decide +kernel
  have ends : Checked.quoteEnd? source '\'' 4 = some 6 := by
    have escape : byte? source.text 4 = some '\\' := by decide
    have close : byte? source.text 6 = some '\'' := by decide
    rw [Checked.quoteEnd?_step escape, if_pos rfl, Checked.quoteEnd?_step close]
    rfl
  have isOpen : Checked.quotedCloser source tag.kind none 2 = some none := by
    have here : cut? source.text 2 source.size = some (source.text.drop 2) := by decide
    have found : Checked.quotedCloser source tag.kind none 2 = _ :=
      Checked.quotedCloser_eq here nofun
    rw [found]
    rfl
  obtain ⟨agrees, fails⟩ := Source.strings_end_alike source
  obtain ⟨-, closes⟩ := agrees '\'' 3 12 (.inr rfl) opens (by decide) (by decide)
  rw [ends] at closes
  exact ⟨⟨opens, isPiece, isOpen⟩, ends, closes, (fails {}).1 tag isPiece nofun isOpen⟩

end TextTemplate
