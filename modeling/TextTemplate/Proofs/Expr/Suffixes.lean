import TextTemplate.Proofs.Expr.Moved
import TextTemplate.Proofs.Node.Rendered
import TextTemplate.Proofs.Value.Paths

/-! # Keys behind parentheses

Behind a closing bracket, a dot and a name are a key. Names with dots between them are one key there
and not several: the dots belong to it, as they belong to the path of a variable. So the names find
what they find in brackets, one in the other, where the value is no object, or where there is just
one of them; in an object they find the field that has all of them for its key. -/

namespace TextTemplate

/-! ### Names -/

namespace Token

/-- Whether a text is a name without dots. -/
def IsName : List Char → Prop
  | [] => False
  | c :: rest => isNameStart c = true ∧ ∀ d ∈ rest, isNameChar d = true

instance : (text : List Char) → Decidable (IsName text)
  | [] => isFalse id
  | c :: rest => decidable_of_iff (isNameStart c = true ∧ rest.all isNameChar = true) (by
      rw [List.all_eq_true, IsName])

namespace IsName

variable {name : List Char}

/-- A name has a first letter. -/
theorem ne_nil (isName : IsName name) : name ≠ [] := by
  rintro rfl
  exact isName

/-- Names consist of the characters that names may have. -/
theorem forall_isNameChar (isName : IsName name) : ∀ c ∈ name, isNameChar c = true := by
  cases name with
  | nil => exact isName.elim
  | cons c rest =>
      refine List.forall_mem_cons.mpr ⟨?_, isName.2⟩
      have starts := isName.1
      simp only [isNameStart, Bool.or_eq_true] at starts
      simp only [isNameChar, Char.isAlphanum, Bool.or_eq_true]
      exact starts.imp_left .inl

/-- There is no dot in a name. -/
theorem noDot (isName : IsName name) : '.' ∉ name := fun isMember =>
  absurd (isName.forall_isNameChar '.' isMember) (by decide)

/-- A text that starts with a name does not start like a number. -/
theorem startsNoNumber (isName : IsName name) (rest : List Char) :
    StartsNoNumber (name ++ rest) := by
  cases name with
  | nil => exact isName.elim
  | cons c more =>
      intro first same
      cases same
      have other (d : Char) (isOther : isNameStart d = false) : c ≠ d :=
        ne_of_apply_ne isNameStart (by rw [isName.1, isOther]; decide)
      obtain ⟨-, noMinus, -, -, noNumber⟩ := other_of_isNameStart isName.1
      obtain ⟨noDigit, -⟩ := Bool.or_eq_false_iff.mp (noNumber [])
      refine ⟨noDigit, ?_⟩
      simp [noMinus, other '+' (by decide), other '.' (by decide)]

/-- A name is written in quotes as it is. -/
theorem quoted_eq {name : String} (isName : IsName name.toList) :
    Expr.quoted name = '"' :: (name.toList ++ ['"']) := by
  have plain : ∀ c ∈ name.toList, Expr.escape c = [c] := by
    intro c isMember
    have isChar := isName.forall_isNameChar c isMember
    have other (d : Char) (isOther : isNameChar d = false) : c ≠ d :=
      ne_of_apply_ne isNameChar (by rw [isChar, isOther]; decide)
    have isPath : isPathChar c = true := by simp [isPathChar, isChar]
    obtain ⟨lower, upper⟩ := (isSolid_of_isPathChar isPath).visible
    have noControl : Expr.isControl c = false := by
      simp only [Expr.isControl, Bool.or_eq_false_iff, Bool.and_eq_false_iff,
        decide_eq_false_iff_not]
      omega
    simp [Expr.escape, other '"' (by decide), other '\\' (by decide), other '\n' (by decide),
      other '\t' (by decide), other '\r' (by decide), noControl]
  rw [Expr.quoted, List.flatMap_congr plain, List.flatMap_singleton']
  rfl

end IsName

/-! ### Names with dots between them -/

variable {name : List Char} {keys : List (List Char)}

/-- Names with dots between them are a path. -/
theorem isPath_dottedPath (areNames : ∀ key ∈ name :: keys, IsName key) :
    IsPath (dottedPath name keys) := by
  obtain ⟨isName, areNames⟩ := List.forall_mem_cons.mp areNames
  have isPath {key : List Char} (isName : IsName key) : ∀ c ∈ key, isPathChar c = true :=
    fun c isMember => by simp [isPathChar, isName.forall_isNameChar c isMember]
  have behind : ∀ c ∈ keys.flatMap ('.' :: ·), isPathChar c = true := by
    intro c isMember
    obtain ⟨key, isKey, isMember⟩ := List.mem_flatMap.mp isMember
    rcases List.mem_cons.mp isMember with rfl | isMember
    · decide
    · exact isPath (areNames key isKey) c isMember
  cases name with
  | nil => exact isName.elim
  | cons c rest =>
      have whole := List.forall_mem_append.mpr ⟨isPath isName, behind⟩
      exact ⟨isName.1, (List.forall_mem_cons.mp whole).2⟩

/-- They do not end in a dot. -/
theorem exists_last (areNames : ∀ key ∈ name :: keys, IsName key) :
    ∃ front last, dottedPath name keys = front ++ [last] ∧ last ≠ '.' := by
  induction keys generalizing name with
  | nil =>
      have isName := areNames name (.head _)
      refine ⟨name.dropLast, name.getLast isName.ne_nil, ?_, fun isDot => ?_⟩
      · rw [List.dropLast_concat_getLast, dottedPath, List.flatMap_nil, List.append_nil]
      · exact isName.noDot (isDot ▸ List.getLast_mem isName.ne_nil)
  | cons key keys ih =>
      obtain ⟨front, last, same, noDot⟩ := ih (List.forall_mem_cons.mp areNames).2
      refine ⟨name ++ '.' :: front, last, ?_, noDot⟩
      rw [List.append_assoc, List.cons_append, ← same]
      rfl

/-- Behind a closing bracket, a dot and names with dots between them are one token. -/
theorem cuts_property {previous : Option TokenKind} (closes : isClosing previous = true)
    (areNames : ∀ key ∈ name :: keys, IsName key) :
    Cuts previous ('.' :: dottedPath name keys)
      [.property (String.ofList (dottedPath name keys))] := by
  have isPath := isPath_dottedPath areNames
  obtain ⟨front, last, same, noDot⟩ := exists_last areNames
  -- Only the dots at the end of a name would be dropped, not those inside.
  have kept : dropDots (dottedPath name keys) = dottedPath name keys := by
    simp [dropDots, same, noDot]
  generalize dottedPath name keys = path at isPath kept
  cases path with
  | nil => exact isPath.elim
  | cons c rest =>
      obtain ⟨starts, others⟩ := isPath
      obtain ⟨-, -, -, -, noNumber⟩ := other_of_isNameStart starts
      have noNumber : startsWithNumber ('.' :: c :: rest) = false := by
        obtain ⟨noDigit, -⟩ := Bool.or_eq_false_iff.mp (noNumber [])
        simpa [startsWithNumber, startsWithDigit] using noDigit
      have run : (c :: rest).takeWhile isPathChar = c :: rest :=
        List.takeWhile_eq_self_iff.mpr
          (List.forall_mem_cons.mpr ⟨isPathChar_of_isNameStart starts, others⟩)
      have first (offset stop : Nat) : lexToken previous '.' (c :: rest) offset stop =
          .ok (.property (String.ofList (c :: rest)), (c :: rest).length) := by
        rw [lexToken, if_neg (by simp [noNumber]), if_neg (by simp), if_neg (by simp),
          if_neg (by decide), if_pos ⟨rfl, closes, by simpa using starts⟩]
        simp only [run, kept]
      have solid : ∀ d ∈ '.' :: c :: rest, IsSolid d :=
        List.forall_mem_cons.mpr ⟨by decide, List.forall_mem_cons.mpr
          ⟨isSolid_of_isPathChar (isPathChar_of_isNameStart starts),
            fun d isMember => isSolid_of_isPathChar (others d isMember)⟩⟩
      have whole : Cuts previous ('.' :: (c :: rest ++ [])) _ :=
        .token (by decide) (.solid (List.cons_ne_nil _ _) solid)
          (fun offset stop => by rw [List.append_nil]; exact first offset stop) .nil
      rwa [List.append_nil] at whole

/-! ### Names in brackets -/

/-- Names in quotes and brackets, one behind the other. -/
def bracketedNames (names : List String) : List Char :=
  names.flatMap fun name => '[' :: '"' :: (name.toList ++ ['"', ']'])

/-- The tokens of names in brackets, wherever these stand. -/
def bracketedTokens (names : List String) : List Token :=
  names.flatMap fun name =>
    [⟨.opening .square, default⟩, ⟨.text name, default⟩, ⟨.closing .square, default⟩]

/-- Every name in brackets is three tokens. -/
theorem cuts_bracketedNames {names : List String} (areNames : ∀ name ∈ names, IsName name.toList)
    (previous : Option TokenKind) :
    Cuts previous (bracketedNames names) (Grammar.kinds (bracketedTokens names)) := by
  induction names generalizing previous with
  | nil => exact .nil
  | cons name names ih =>
      obtain ⟨isName, areNames⟩ := List.forall_mem_cons.mp areNames
      have closing : Cuts (some (.text name)) _ _ :=
        (isCut_closing false .square (bracketedNames names)).cuts rfl (ih areNames _)
      have key : Cuts (some (.opening .square)) _ _ := (isCut_text true name _).cuts rfl closing
      have opening : Cuts previous _ _ := (isCut_opening _ .square _).cuts rfl key
      rw [isName.quoted_eq] at opening
      simpa [bracketedNames, bracketedTokens, Bracket.opening, Bracket.closing] using opening

end Token

/-! ### Reading keys behind parentheses -/

open Grammar

namespace Expr

variable {limit : Nat} {expr : Expr}

/-- What lies in an object under a name, wherever the name stands. -/
def key (object : Expr) (name : String) : Expr :=
  .member object (.text name default) (object.span.merge default)

/-- Every expression is a level of its own. -/
theorem depth_pos (expr : Expr) : 0 < expr.depth := by
  cases expr <;> simp [depth]

/-- A key of a property adds one level to its object. -/
theorem depth_key (object : Expr) (name : String) : (object.key name).depth = object.depth + 1 := by
  rw [key, depth, show (text name default).depth = 1 from rfl, Nat.max_eq_left object.depth_pos]

/-- A key is one more level. -/
theorem within_key {object : Expr} {name : String} :
    (object.key name).Within limit ↔ object.Within limit ∧ object.depth + 1 ≤ limit := by
  have isKey : (text name default).Within limit := within_of_not_isComposite rfl
  rw [key, within_member, and_iff_left isKey, show (text name default).depth = 1 from rfl,
    Nat.max_eq_left object.depth_pos]

/-- Every key is one more level. -/
theorem within_foldl_key {names : List String} (within : expr.Within limit)
    (room : expr.depth + names.length ≤ limit) : (names.foldl key expr).Within limit := by
  induction names generalizing expr with
  | nil => exact within
  | cons name names ih =>
      rw [List.length_cons] at room
      refine ih (within_key.mpr ⟨within, by omega⟩) ?_
      rw [depth_key]
      omega

/-- Keys are looked up one in the other. -/
theorem eval_foldl_key (env : Environment) (methods : Registry) (names : List String)
    (expr : Expr) : (names.foldl key expr).eval env methods =
      (names.map Value.text).foldl Value.member (expr.eval env methods) := by
  induction names generalizing expr with
  | nil => rfl
  | cons name names ih => exact ih (expr.key name)

/-- Names in brackets are keys, one after the other. -/
theorem postfixed_bracketedTokens (names : List String) {tokens : List Token}
    (derived : Postfixed tokens expr) :
    Postfixed (tokens ++ Token.bracketedTokens names) (names.foldl key expr) := by
  induction names generalizing tokens expr with
  | nil => simpa [Token.bracketedTokens] using derived
  | cons name names ih =>
      have isKey : Chain 0 [⟨.text name, default⟩] (.text name default) :=
        .operand (.postfixed (.primary (.text name default)))
      have first : Postfixed
          (tokens ++ ⟨.opening .square, default⟩ :: [⟨.text name, default⟩] ++
            [⟨.closing .square, default⟩]) (expr.key name) := .index derived isKey
      simpa [Token.bracketedTokens] using ih first

end Expr

/-- A text in parentheses, with another text behind them. -/
def inParentheses (text suffix : List Char) : List Char := '(' :: (text ++ ')' :: suffix)

/-- A text that spells an expression does so in parentheses, with tokens behind them that the
grammar lets follow. -/
theorem Spells.suffixed {limits : Limits} {expr whole : Expr} {text suffix : List Char}
    {more : List Token} (spells : Spells limits text expr)
    (behind : Token.Cuts (some (.closing .round)) suffix (kinds more))
    (derives : ∀ {tokens}, Postfixed tokens expr → Postfixed (tokens ++ more) whole)
    (within : whole.Within limits.maxExpressionDepth) :
    Spells limits (inParentheses text suffix) whole := by
  obtain ⟨-, tokens, cuts, -, chain⟩ := spells
  have closing (last : Option TokenKind) : Token.Cuts last _ _ :=
    (Token.isCut_closing _ .round suffix).cuts rfl behind
  -- Behind an opening bracket an operand is expected, as it is at the start of the text.
  have moved : Token.Cuts (some (.opening .round)) text (kinds tokens) := cuts.of_previous rfl rfl
  have inside := moved.append (Token.endsOperand_cons (by decide) suffix) closing
  have opening : Token.Cuts none _ _ := (Token.isCut_opening true .round _).cuts rfl inside
  have group : Primary
      (⟨.opening .round, default⟩ :: tokens ++ [⟨.closing .round, default⟩]) expr := .group chain
  refine ⟨within, _, ?_, by simp, .operand (.postfixed (derives (.primary group)))⟩
  simpa [kinds, inParentheses, Bracket.opening, Bracket.closing] using opening

/-! ### What keys find -/

namespace Value

/-- In a value that is no object, a name finds at most the length. -/
theorem member_text_of_noObject {value : Value} (noObject : ∀ fields, value ≠ .object fields)
    {key : String} (other : StartsNoNumber key.toList) :
    value.member (.text key) = if key = "length" then value.lengthValue else .null := by
  rw [member_text value other]
  cases value with
  | object fields => exact absurd rfl (noObject fields)
  | array items => rw [segment?, other.place?_eq_none]; rfl
  | null | boolean | number | text => rfl

/-- In a value that is no object, several names find nothing one in the other. -/
theorem foldl_member_of_noObject {value : Value} (noObject : ∀ fields, value ≠ .object fields)
    {name next : String} (isName : StartsNoNumber name.toList) (names : List String) :
    ((name :: next :: names).map Value.text).foldl member value = .null := by
  rw [List.map_cons, List.map_cons, List.foldl_cons, List.foldl_cons,
    member_text_of_noObject noObject isName]
  split
  · rw [member_lengthValue, foldl_member_null]
  · exact foldl_member_null _

/-- Names with dots between them, taken for one key, find what they find one in the other exactly
if there is one name only, or if the value is no object, or if its field with that key is so. -/
theorem member_dotted_eq_foldl_iff (value : Value) {name : String} {names : List String}
    (areNames : ∀ key ∈ name :: names, Token.IsName key.toList) :
    let joined := String.ofList (dottedPath name.toList (names.map String.toList))
    value.member (.text joined) = ((name :: names).map Value.text).foldl member value ↔
      names = [] ∨ ∀ fields, value = .object fields →
        (field? joined fields).getD .null =
          ((name :: names).map Value.text).foldl member (.object fields) := by
  intro joined
  obtain ⟨isName, -⟩ := List.forall_mem_cons.mp areNames
  cases names with
  | nil =>
      refine iff_of_true ?_ (.inl rfl)
      have isJoined : joined = name := by simp [joined, dottedPath]
      rw [isJoined]
      rfl
  | cons next names =>
      rw [or_iff_right (List.cons_ne_nil _ _)]
      by_cases isObject : ∃ fields, value = .object fields
      · obtain ⟨fields, rfl⟩ := isObject
        have found : member (.object fields) (.text joined) =
            (field? joined fields).getD .null := by
          rw [member, display, String.ofList_toList]
        rw [found]
        refine ⟨fun same fields' isFields => ?_, fun always => always fields rfl⟩
        cases isFields
        exact same
      · have noObject := not_exists.mp isObject
        refine iff_of_true ?_ fun fields isFields => absurd isFields (noObject fields)
        -- A key with a dot in it does not ask for the length, and a name is no place.
        have hasDot : joined ≠ "length" := by
          intro same
          have isMember : '.' ∈ joined.toList := by simp [joined, dottedPath]
          rw [same] at isMember
          exact absurd isMember (by decide)
        have other : StartsNoNumber joined.toList := by
          rw [String.toList_ofList]
          exact isName.startsNoNumber _
        have first : StartsNoNumber name.toList := by
          simpa using isName.startsNoNumber []
        rw [member_text_of_noObject noObject other, if_neg hasDot,
          foldl_member_of_noObject noObject first]

end Value

/-! ### Both kinds of suffixes -/

namespace Source

variable {source : Source} {limits : Limits} {expr : Expr}

/-- Names behind an expression in parentheses, each after a dot, are one key with the dots in it; in
quotes and brackets they are a key each. Both find the same exactly if there is one name only, or if
the expression gives no object, or if the object has under the whole key what the names find one in
the other. -/
theorem eval_dotted_eq_bracketed_iff (read : source.expression limits = .ok expr) {name : String}
    {names : List String} (areNames : ∀ key ∈ name :: names, Token.IsName key.toList)
    (room : expr.depth + (name :: names).length ≤ limits.maxExpressionDepth) :
    let joined := dottedPath name.toList (names.map String.toList)
    ∃ dotted bracketed : Expr,
      expression ⟨source.name, inParentheses source.text ('.' :: joined)⟩ limits = .ok dotted ∧
      expression ⟨source.name, inParentheses source.text (Token.bracketedNames (name :: names))⟩
        limits = .ok bracketed ∧
      ∀ (env : Environment) (methods : Registry),
        let value := expr.eval env methods
        let chained := ((name :: names).map Value.text).foldl Value.member value
        dotted.eval env methods = value.member (.text (String.ofList joined)) ∧
        bracketed.eval env methods = chained ∧
        (dotted.eval env methods = bracketed.eval env methods ↔
          names = [] ∨ ∀ fields, value = .object fields →
            (Value.field? (String.ofList joined) fields).getD .null = chained) := by
  intro joined
  have spells := Source.spells read
  have within := spells.1
  have areKeys : ∀ key ∈ name.toList :: names.map String.toList, Token.IsName key := by
    simpa using areNames
  have dottedSpells : Spells limits (inParentheses source.text ('.' :: joined))
      (expr.key (String.ofList joined)) := by
    rw [List.length_cons] at room
    have behind : Token.Cuts (some (.closing .round)) ('.' :: joined)
        (kinds [⟨.property (String.ofList joined), default⟩]) := Token.cuts_property rfl areKeys
    exact spells.suffixed behind .property (Expr.within_key.mpr ⟨within, by omega⟩)
  have bracketedSpells : Spells limits
      (inParentheses source.text (Token.bracketedNames (name :: names)))
      ((name :: names).foldl Expr.key expr) :=
    spells.suffixed (Token.cuts_bracketedNames areNames _)
      (Expr.postfixed_bracketedTokens (name :: names)) (Expr.within_foldl_key within room)
  -- What is read differs from what is spelled in its spans only, which no value depends on.
  obtain ⟨dotted, readDotted, alikeDotted⟩ := dottedSpells.expression_source source.name
  obtain ⟨bracketed, readBracketed, alikeBracketed⟩ :=
    bracketedSpells.expression_source source.name
  refine ⟨dotted, bracketed, readDotted, readBracketed, fun env methods => ?_⟩
  intro value chained
  have isDotted : dotted.eval env methods = value.member (.text (String.ofList joined)) :=
    alikeDotted.eval_eq (fun _ _ => rfl) (fun _ _ _ => rfl)
  have isBracketed : bracketed.eval env methods = chained :=
    (alikeBracketed.eval_eq (fun _ _ => rfl) (fun _ _ _ => rfl)).trans
      (Expr.eval_foldl_key env methods (name :: names) expr)
  refine ⟨isDotted, isBracketed, ?_⟩
  rw [isDotted, isBracketed]
  refine (Value.member_dotted_eq_foldl_iff value areNames).trans ?_
  refine or_congr_right (forall_congr' fun fields => forall_congr' fun isFields => ?_)
  rw [← isFields]

/-- Two keys of objects inside of each other are found in brackets, and not behind dots. -/
theorem eval_dotted_eq_bracketed_iff_of_nested :
    let source : Source := .ofString "page" "a"
    let value : Value := .object [("b", .object [("c", .number (.integer 1))])]
    let env : Environment := ⟨.object [("a", value)], []⟩
    ∃ dotted bracketed : Expr,
      expression source {} = .ok (.variable "a" ⟨⟨1, 1⟩, ⟨1, 2⟩⟩) ∧
      (∀ key ∈ ["b", "c"], Token.IsName key.toList) ∧
      expression (.ofString "page" "(a).b.c") {} = .ok dotted ∧
      expression (.ofString "page" "(a)[\"b\"][\"c\"]") {} = .ok bracketed ∧
      dotted.eval env .empty = .null ∧ bracketed.eval env .empty = .number (.integer 1) := by
  intro source value env
  have lexed : source.tokens = .ok [⟨.identifier "a", ⟨⟨1, 1⟩, ⟨1, 2⟩⟩⟩] := rfl
  have read : expression source {} = .ok (.variable "a" ⟨⟨1, 1⟩, ⟨1, 2⟩⟩) :=
    bind_eq_ok_iff.mpr ⟨_, lexed, Expr.ofTokens_of_chain
      (.operand (.postfixed (.primary (.variable "a" _)))) (Expr.within_of_not_isComposite rfl)⟩
  have areNames : ∀ key ∈ ["b", "c"], Token.IsName key.toList := by decide
  obtain ⟨dotted, bracketed, readDotted, readBracketed, values⟩ :=
    eval_dotted_eq_bracketed_iff read areNames (by decide)
  obtain ⟨isDotted, isBracketed, -⟩ := values env .empty
  exact ⟨dotted, bracketed, read, areNames, readDotted, readBracketed, isDotted, isBracketed⟩

end Source

end TextTemplate
