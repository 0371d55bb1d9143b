import TextTemplate.Proofs.Node.Faults
import TextTemplate.Proofs.Source.Lines
import TextTemplate.Template

/-! # Where templates that cannot be read are at fault

A source that is no template is reported with the place where it is at fault. Whatever is wrong, the
place is between two edges of characters of the source, and the line that is shown with it is the one
that the place starts in. Positions are kept in words, so this takes a source that is short enough
for them. -/

namespace TextTemplate

variable {source : Source} {limits : Limits}

/-- Whether a diagnostic names a source and a place in it, and shows the line of the place. -/
structure Diagnostic.PointsInto (d : Diagnostic) (source : Source) : Prop where
  file : d.file = source.name
  category : d.category = .ofCode d.code
  /-- The span has the positions of two edges of characters, in order. -/
  marks : ∃ start stop, start ≤ stop ∧ IsEdge source.text start ∧ IsEdge source.text stop ∧
    d.span = ⟨source.position start, source.position stop⟩
  ordered : d.span.start ≤ d.span.stop
  /-- The line is shown without the carriage returns in front of its line feed. -/
  line : ∃ line, source.IsLine d.span.start.line.toNat line ∧
    d.sourceLine = String.ofList (line.rdropWhile (· == '\r'))

/-- A fault with a marked span is reported in its place and with its line. -/
theorem Diagnostic.pointsInto_of_marks {fault : Fault} (short : source.size < 2 ^ 32 - 1)
    (marks : source.Marks fault.span) : (ofFault source fault).PointsInto source := by
  refine ⟨rfl, rfl, marks, marks.ordered short, ?_⟩
  obtain ⟨start, stop, -, ⟨before, after, isText, rfl⟩, -, isSpan⟩ := marks
  obtain ⟨line, isLine⟩ := Source.exists_isLine isText
  rw [← (Source.toNat_position_of_eq_append short isText).1] at isLine
  have isStart : fault.span.start = source.position (byteLength before) := by rw [isSpan]
  rw [← isStart] at isLine
  refine ⟨line, isLine, ?_⟩
  show String.ofList ((source.line? fault.span.start.line.toNat).getD []) = _
  rw [isLine.line?_eq, Option.getD_some]
  rfl

namespace Template

/-- Every diagnostic of a short source that is no template points into the source. -/
theorem pointsInto_of_compile {d : Diagnostic} (short : source.size < 2 ^ 32 - 1)
    (fails : compile source limits = .error d) : d.PointsInto source := by
  have located : source.Locates (fun _ => True) (source.nodes limits) := Source.locates_nodes short
  rw [compile] at fails
  split at fails
  next => cases fails
  next fault read =>
    cases fails
    rw [read] at located
    exact Diagnostic.pointsInto_of_marks short located

/-- A comma without an argument in a loop inside a choice, on a line with characters of several
bytes that ends with a carriage return. -/
theorem pointsInto_of_lines :
    let source : Source := .ofString "page" <|
      "é\r\n\x7b% if a %\x7d€\n\x7b% for x in f(\r\n 'ß', , 1\r\r\n) %\x7d" ++
        "\x7b% endfor %\x7d\x7b% endif %\x7d"
    source.size < 2 ^ 32 - 1 ∧ ∃ d, compile source {} = .error d ∧ d.PointsInto source := by
  intro source
  have short : source.size < 2 ^ 32 - 1 := by decide +kernel
  have fails : (compile source {}).toOption.isSome = false := by decide +kernel
  cases compiled : compile source {} with
  | ok template => rw [compiled] at fails; cases fails
  | error d => exact ⟨short, d, rfl, pointsInto_of_compile short compiled⟩

end Template

end TextTemplate
