import TextTemplate.Proofs.Node.Closers
import TextTemplate.Proofs.Node.Machine
import TextTemplate.Proofs.Node.Moved

/-! # Pieces of joined texts

A text that another is appended to keeps its pieces, as long as all of its tags say something and it
does not end with half an opener. A text at its end becomes one with a text that follows. -/

namespace TextTemplate

/-! ### Closers that are found -/

namespace TagKind

variable {kind : TagKind} {text : List Char} {length : Nat}

/-- A text that starts with a closer has a rest behind it. -/
theorem eq_of_isPrefixOf (isPrefix : kind.closer.isPrefixOf text = true) :
    ∃ rest, text = kind.closer ++ rest := by
  obtain ⟨rest, same⟩ := List.isPrefixOf_iff_prefix.mp isPrefix
  exact ⟨rest, same.symm⟩

/-- A closer stands where the first one is found. -/
theorem eq_of_firstCloser? (found : kind.firstCloser? text = some length) :
    ∃ inner rest, text = inner ++ (kind.closer ++ rest) ∧ inner.length = length := by
  induction text generalizing length with
  | nil => cases found
  | cons c more ih =>
      rw [firstCloser?] at found
      split at found
      next here =>
        cases found
        obtain ⟨rest, same⟩ := eq_of_isPrefixOf here
        exact ⟨[], rest, same, rfl⟩
      next =>
        obtain ⟨before, there, rfl⟩ := Option.map_eq_some_iff.mp found
        obtain ⟨inner, rest, rfl, rfl⟩ := ih there
        exact ⟨c :: inner, rest, rfl, rfl⟩

/-- A closer stands where the first one outside of quotes is found. -/
theorem eq_of_unquotedCloser? {quote? : Option Char}
    (found : kind.unquotedCloser? quote? text = some length) :
    ∃ inner rest, text = inner ++ (kind.closer ++ rest) ∧ inner.length = length := by
  -- The cases are those of the search: a character is passed over, or two of them in a string.
  fun_induction unquotedCloser? kind quote? text generalizing length with
  | case1 => cases found
  | case2 quote c rest ih =>
      obtain ⟨before, there, rfl⟩ := Option.map_eq_some_iff.mp found
      obtain ⟨inner, behind, rfl, rfl⟩ := ih there
      exact ⟨_ :: c :: inner, behind, rfl, rfl⟩
  | case3 quote c rest _ ih | case4 c rest _ ih | case6 c rest _ _ ih =>
      obtain ⟨before, there, rfl⟩ := Option.map_eq_some_iff.mp found
      obtain ⟨inner, behind, rfl, rfl⟩ := ih there
      exact ⟨c :: inner, behind, rfl, rfl⟩
  | case5 c rest _ here =>
      cases found
      obtain ⟨behind, same⟩ := eq_of_isPrefixOf here
      exact ⟨[], behind, same, rfl⟩

/-- The inner text of a tag stands in front of its closer. -/
theorem eq_of_innerLength? (found : kind.innerLength? text = some length) :
    ∃ inner rest, text = inner ++ (kind.closer ++ rest) ∧ inner.length = length := by
  have either (found : (kind.unquotedCloser? none text).or (kind.firstCloser? text) = some length) :
      ∃ inner rest, text = inner ++ (kind.closer ++ rest) ∧ inner.length = length :=
    (Option.or_eq_some_iff.mp found).elim eq_of_unquotedCloser? fun first =>
      eq_of_firstCloser? first.2
  cases kind with
  | comment => exact eq_of_firstCloser? found
  | interpolation => exact either found
  | statement => exact either found

end TagKind

namespace Piece

/-! ### Joining -/

/-- A piece in front of others: a text becomes one with a text that follows it. -/
def glue : Piece → List Piece → List Piece
  | .text content start, .text more _ :: rest => .text (content ++ more) start :: rest
  | piece, others => piece :: others

/-- Pieces in front of others: a text at their end becomes one with a text that follows. -/
def join : List Piece → List Piece → List Piece
  | [], others => others
  | [last], others => glue last others
  | piece :: next :: rest, others => piece :: join (next :: rest) others

variable {c : Char} {start offset skip : Nat} {text more : List Char} {pieces others : List Piece}

/-- A character in front of joined pieces is one in front of the first ones. -/
theorem consText_join (pieces others : List Piece) :
    consText c start (join pieces others) = join (consText c start pieces) others := by
  match pieces with
  | [] =>
      rcases others with _ | ⟨_ | _ | _, _⟩ <;> rfl
  | [.text _ _] =>
      rcases others with _ | ⟨_ | _ | _, _⟩ <;> rfl
  | [.tag _] | [.unclosed _ _] => rfl
  | .text _ _ :: _ :: _ | .tag _ :: _ :: _ | .unclosed _ _ :: _ :: _ => rfl

/-- A piece that is no text is joined as it is. -/
theorem join_cons {piece : Piece} (noText : piece.content? = none) :
    join (piece :: pieces) others = piece :: join pieces others := by
  cases pieces with
  | cons => rfl
  | nil =>
      cases piece with
      | text => cases noText
      | tag => rfl
      | unclosed => rfl

/-- Pieces are joined by writing the others behind them, or by making one text of two. -/
theorem join_cases (pieces others : List Piece) :
    join pieces others = pieces ++ others ∨
      ∃ before content start more start' rest, pieces = before ++ [.text content start] ∧
        others = .text more start' :: rest ∧
        join pieces others = before ++ .text (content ++ more) start :: rest := by
  induction pieces with
  | nil => exact .inl rfl
  | cons piece rest ih =>
      cases rest with
      | nil =>
          match piece, others with
          | .text content start, .text more start' :: rest =>
              exact .inr ⟨[], content, start, more, start', rest, rfl, rfl, rfl⟩
          | .text _ _, [] | .text _ _, .tag _ :: _ | .text _ _, .unclosed _ _ :: _ => exact .inl rfl
          | .tag _, _ | .unclosed _ _, _ => exact .inl rfl
      | cons next rest =>
          rcases ih with same | ⟨before, content, start, more, start', others', split, rfl, same⟩
          · exact .inl (congrArg (piece :: ·) same)
          · rw [split]
            refine .inr ⟨piece :: before, content, start, more, start', others', rfl, rfl, ?_⟩
            rw [← split]
            exact congrArg (piece :: ·) same

/-! ### Scanning joined texts -/

/-- Whether a piece ends where it does whatever follows it. -/
def IsStable : Piece → Prop
  | .text _ _ => True
  | .unclosed _ _ => False
  | .tag ⟨kind, _, inner⟩ => ∀ rest,
      kind.innerLength? (inner ++ (kind.closer ++ rest)) = some inner.length

/-- A character of text in front changes no tag. -/
theorem isStable_of_consText (stable : ∀ piece ∈ consText c start pieces, piece.IsStable) :
    ∀ piece ∈ pieces, piece.IsStable := by
  cases pieces with
  | nil => exact nofun
  | cons piece rest =>
      cases piece with
      | text content start =>
          have here : (text content start).IsStable := trivial
          exact List.forall_mem_cons.mpr ⟨here, (List.forall_mem_cons.mp stable).2⟩
      | tag => exact (List.forall_mem_cons.mp stable).2
      | unclosed => exact (List.forall_mem_cons.mp stable).2

/-- A text whose pieces are stable keeps them when another one is appended, if it does not end with
half an opener. -/
theorem scan_append (stable : ∀ piece ∈ scan offset skip text, piece.IsStable)
    (passed : skip ≤ text.length) (noBrace : text.getLast? ≠ some '\x7b') (more : List Char) :
    scan offset skip (text ++ more) =
      join (scan offset skip text) (scan (offset + byteLength text) 0 more) := by
  induction text generalizing offset skip with
  | nil =>
      obtain rfl : skip = 0 := Nat.le_zero.mp passed
      rfl
  | cons c rest ih =>
      have noBraceRest : rest.getLast? ≠ some '\x7b' := fun isBrace => by
        simp [List.getLast?_cons, isBrace] at noBrace
      cases skip with
      | succ skip =>
          rw [List.cons_append, scan, ih stable (Nat.le_of_succ_le_succ passed) noBraceRest, scan,
            byteLength, Nat.add_assoc]
      | zero =>
          -- Whether a tag opens depends on the next character, which is the same.
          have sameOpener : TagKind.openedBy? c (rest ++ more) = TagKind.openedBy? c rest := by
            cases rest with
            | nil =>
                have notBrace : c ≠ '\x7b' := by simpa using noBrace
                rw [TagKind.openedBy?, TagKind.openedBy?, if_neg notBrace, if_neg notBrace]
            | cons => exact openedBy?_congr rfl
          rw [scan] at stable
          rw [List.cons_append, scan, scan, sameOpener, byteLength, ← Nat.add_assoc]
          split at stable
          next plain =>
            rw [ih (isStable_of_consText stable) (Nat.zero_le _) noBraceRest, consText_join]
          next kind opened =>
            split at stable
            next => exact absurd (stable _ (.head _)) id
            next length found =>
              obtain ⟨here, others⟩ := List.forall_mem_cons.mp stable
              obtain ⟨inner, behind, whole, rfl⟩ := TagKind.eq_of_innerLength? found
              have length : inner.length + 3 ≤ rest.length := by
                have sizes := congrArg List.length whole
                simp [TagKind.closer] at sizes
                omega
              have wholeMore : (rest ++ more).drop 1 = inner ++ (kind.closer ++ (behind ++ more)) := by
                rw [List.drop_append_of_le_length (by omega), whole]
                simp
              have closes : kind.innerLength? (inner ++ (kind.closer ++ (behind ++ more))) =
                  some inner.length := by
                have closes := here (behind ++ more)
                simpa [whole] using closes
              simp only [wholeMore, closes]
              rw [ih others length noBraceRest, join_cons rfl, whole]
              simp

end Piece

/-! ### What joined pieces say -/

namespace Source

variable {source : Source} {limits : Limits}

/-- Pieces that say something are stable. -/
theorem Says.isStable {offset skip : Nat} {text : List Char} {events : List Event}
    (said : source.Says limits (Piece.scan offset skip text) events) :
    ∀ piece ∈ Piece.scan offset skip text, piece.IsStable := by
  intro piece found
  obtain ⟨event, here⟩ := said.exists_event piece found
  cases piece with
  | text => trivial
  | unclosed => cases here
  | tag tag =>
      intro rest
      cases kind : tag.kind with
      | comment => exact Piece.firstCloser?_of_scan found kind rest
      | _ =>
          have closes := closes_of_event here (by simp [kind]) rest
          rw [kind] at closes
          simp [TagKind.innerLength?, closes]

/-- One list of pieces after another says what both say. -/
theorem says_append_iff {pieces others : List Piece} {events : List Event} :
    source.Says limits (pieces ++ others) events ↔ ∃ first second,
      source.Says limits pieces first ∧ source.Says limits others second ∧
        events = first ++ second := by
  simp [Says, List.mapM_append, Option.bind_eq_some_iff, eq_comm (a := events)]

end Source

namespace Node

variable {room : Nat} {event : Event} {events : List Event} {node : Node} {nodes : List Node}

/-- The node of an event that a body ends with and that belongs to no block is its last one. -/
theorem Body.exists_last (body : Body room (events ++ [event]) nodes)
    (isLeaf : event.leaf? = some node) :
    ∃ before, Body room events before ∧ nodes = before ++ [node] := by
  -- A run of the machine ends with the step for the last event, which only adds the node.
  have accepted := Machine.accept_eq_some_iff.mpr body
  rw [Machine.accept, Machine.run_append] at accepted
  cases runs : Machine.run room .initial events with
  | none => simp [runs] at accepted
  | some machine =>
      obtain ⟨blocks, before⟩ := machine
      simp only [runs, Option.bind_some, Machine.run, Machine.step_leaf isLeaf] at accepted
      cases blocks with
      | cons => cases accepted
      | nil =>
          cases accepted
          have first : Machine.accept room events = some before.reverse := by
            rw [Machine.accept, runs]
          exact ⟨_, Machine.accept_eq_some_iff.mp first, by simp⟩

/-- The node of an event that a body starts with and that belongs to no block is its first one. -/
theorem Body.exists_first (body : Body room (event :: events) nodes)
    (isLeaf : event.leaf? = some node) :
    ∃ rest, Body room events rest ∧ nodes = node :: rest := by
  generalize whole : event :: events = all at body
  cases body with
  | nil => cases whole
  | leaf isLeaf' rest =>
      cases whole
      rw [isLeaf] at isLeaf'
      cases isLeaf'
      exact ⟨_, rest, rfl⟩
  | loop =>
      cases whole
      cases isLeaf
  | choice =>
      cases whole
      cases isLeaf

end Node

end TextTemplate
