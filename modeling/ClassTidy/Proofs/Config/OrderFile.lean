import ClassTidy.Config.OrderFile
import ClassTidy.Proofs.Steps
import ClassTidy.Proofs.Text.Lines
import ClassTidy.Proofs.Text.Trimming
import ClassTidy.Proofs.Text.Utf8

/-!
# Reading an order file back

The names that are read from an order file are those it is written with, in their order. It may be
written with any white space around the names, any lines that are blank or comments between them,
and any ends of lines.
-/

set_option autoImplicit false

namespace ClassTidy

theorem Source.text_eq_ok_iff {source : Source} {path text : Text} :
    source.text path = .ok text ↔
      ∃ given, source (Path.plain path) = .ok (Utf8.encode given) ∧ text = given.unifyLineEnds := by
  unfold Source.text
  constructor
  · intro isText
    split at isText
    · cases isText
    next octets found =>
      split at isText
      · cases isText
      next given decoded =>
        rw [found, Utf8.decode_eq_ok_iff.mp decoded]
        exact ⟨given, rfl, (Except.ok.inj isText).symm⟩
  · rintro ⟨given, found, rfl⟩
    simp only [found, Utf8.decode_eq_ok_iff.mpr rfl]

/-! ## How an order file is written -/

namespace Text

/-- Whether a text can stand on a single line. -/
def IsUnbroken (text : Text) : Prop := ∀ c ∈ text, isLineBoundary c = false

theorem isUnbroken_nil : IsUnbroken [] := nofun

theorem IsUnbroken.concat {text : Text} (unbroken : text.IsUnbroken) {c : Char}
    (inside : isLineBoundary c = false) : IsUnbroken (text ++ [c]) :=
  List.forall_mem_append.mpr ⟨unbroken, List.forall_mem_singleton.mpr inside⟩

/-- What ends a line: a line boundary, or two where a line feed follows a carriage return. -/
inductive IsLineEnd : Text → Prop where
  | feedAfterReturn : IsLineEnd ['\r', '\n']
  | boundary {c : Char} (boundary : isLineBoundary c = true) : IsLineEnd [c]

theorem IsLineEnd.isBlank {lineEnd : Text} (isEnd : lineEnd.IsLineEnd) : lineEnd.IsBlank := by
  cases isEnd with
  | feedAfterReturn => exact List.forall_mem_cons.mpr ⟨rfl, List.forall_mem_singleton.mpr rfl⟩
  | boundary boundary => exact List.forall_mem_singleton.mpr (isBlank_of_isLineBoundary boundary)

theorem IsLineEnd.exists_boundary {lineEnd : Text} (isEnd : lineEnd.IsLineEnd) :
    ∃ c ∈ lineEnd, isLineBoundary c = true := by
  cases isEnd with
  | feedAfterReturn => exact ⟨'\r', List.mem_cons_self, rfl⟩
  | boundary boundary => exact ⟨_, List.mem_singleton_self _, boundary⟩

end Text

namespace OrderFile

/-- A class name that can be given in an order file. -/
structure IsName (name : Text) : Prop where
  ne_nil : name ≠ []
  unbroken : name.IsUnbroken
  starts : name.startsBlank = false
  ends : name.endsBlank = false
  noComment : name.head? ≠ some '#'

/-- What stands between two ends of lines, with the name there if it is not blank or a comment.
The white space around a name, or in front of a comment, may break lines of its own. -/
inductive IsEntry : Text → Option Text → Prop where
  | name {before name after : Text} (blankBefore : before.IsBlank) (isName : IsName name)
      (blankAfter : after.IsBlank) : IsEntry (before ++ (name ++ after)) (some name)
  | blank {space : Text} (blank : space.IsBlank) : IsEntry space none
  | comment {before remark : Text} (blankBefore : before.IsBlank) (unbroken : remark.IsUnbroken) :
      IsEntry (before ++ '#' :: remark) none

theorem IsEntry.isName {line : Text} {entry : Option Text} (isEntry : IsEntry line entry) :
    ∀ name ∈ entry.toList, IsName name := by
  cases isEntry with
  | name _ isName _ => exact List.forall_mem_singleton.mpr isName
  | blank => exact nofun
  | comment => exact nofun

/-- Whether a text is an order file for the names. The end of the last line may be missing. -/
inductive Writes : List Text → Text → Prop where
  | nil : Writes [] []
  | last {line : Text} {entry : Option Text} (isEntry : IsEntry line entry) :
      Writes entry.toList line
  | line {line lineEnd rest : Text} {entry : Option Text} {names : List Text}
      (isEntry : IsEntry line entry) (isEnd : lineEnd.IsLineEnd) (writes : Writes names rest) :
      Writes (entry.toList ++ names) (line ++ (lineEnd ++ rest))

/-! ## Lines without their white space -/

theorem name?_blank_append {space : Text} (blank : space.IsBlank) (line : Text) :
    name? (space ++ line) = name? line := by
  rw [name?, Text.strip_blank_append blank]
  rfl

theorem name?_append_blank (line : Text) {space : Text} (blank : space.IsBlank) :
    name? (line ++ space) = name? line := by
  rw [name?, Text.strip_append_blank line blank]
  rfl

theorem name?_of_isBlank {space : Text} (blank : space.IsBlank) : name? space = none := by
  rw [name?, Text.strip_of_isBlank blank]

theorem IsName.name?_eq {name : Text} (isName : IsName name) : name? name = some name := by
  rw [name?, Text.strip_eq_self isName.starts isName.ends]
  cases name with
  | nil => exact (isName.ne_nil rfl).elim
  | cons c rest =>
    have noComment : c ≠ '#' := fun same => isName.noComment (congrArg some same)
    exact if_neg noComment

theorem name?_of_strip {line rest : Text} {c : Char} (strip : line.strip = c :: rest) :
    name? line = if c = '#' then none else some (c :: rest) := by
  rw [name?, strip]

theorem name?_comment (remark : Text) : name? ('#' :: remark) = none := by
  obtain ⟨before, after, blankBefore, blankAfter, parts, -⟩ := Text.exists_strip ('#' :: remark)
  cases before with
  | cons c before =>
    obtain ⟨rfl, -⟩ := List.cons_eq_cons.mp parts
    exact absurd (blankBefore '#' List.mem_cons_self) (by decide)
  | nil =>
    cases strip : Text.strip ('#' :: remark) with
    | nil => rw [name?, strip]
    | cons c rest =>
      rw [strip] at parts
      obtain ⟨rfl, -⟩ := List.cons_eq_cons.mp parts
      exact name?_of_strip strip

/-- What is read as the name on a line is how that line was written. -/
theorem isEntry_name? {line : Text} (unbroken : line.IsUnbroken) : IsEntry line (name? line) := by
  obtain ⟨before, after, blankBefore, blankAfter, parts, starts, ends⟩ := Text.exists_strip line
  have inLine : ∀ c ∈ line.strip ++ after, c ∈ line := by
    intro c member
    rw [parts]
    exact List.mem_append_right before member
  cases strip : line.strip with
  | nil =>
    rw [strip, List.nil_append] at parts
    rw [name?, strip, parts]
    exact .blank (List.forall_mem_append.mpr ⟨blankBefore, blankAfter⟩)
  | cons c rest =>
    rw [strip] at parts starts ends inLine
    rw [name?_of_strip strip]
    by_cases isComment : c = '#'
    · rw [isComment] at parts inLine
      rw [if_pos isComment, parts]
      refine .comment blankBefore fun d member => ?_
      exact unbroken d (inLine d (List.mem_cons_of_mem _ member))
    · rw [if_neg isComment, parts]
      refine .name blankBefore ⟨List.cons_ne_nil c rest, ?_, starts, ends, ?_⟩ blankAfter
      · exact fun d member => unbroken d (inLine d (List.mem_append_left after member))
      · exact fun same => isComment (Option.some.inj same)

/-! ## Lines one behind the other -/

theorem names_of_lines {text line : Text} {lines : List Text}
    (cut : text.boundaryLines = line :: lines) :
    names text = (name? line).toList ++ lines.filterMap name? := by
  rw [names, cut]
  cases found : name? line with
  | none => exact List.filterMap_cons_none found
  | some name => exact List.filterMap_cons_some found

theorem names_boundary {line : Text} (unbroken : line.IsUnbroken) {c : Char}
    (boundary : Text.isLineBoundary c = true) (rest : Text) :
    names (line ++ c :: rest) = (name? line).toList ++ names rest :=
  names_of_lines (Text.linesBy_append_end unbroken boundary rest)

theorem names_unbroken {line : Text} (unbroken : line.IsUnbroken) :
    names line = (name? line).toList := by
  cases line with
  | nil => rfl
  | cons c rest =>
    rw [names_of_lines (Text.linesBy_of_no_end (List.cons_ne_nil c rest) unbroken)]
    exact List.append_nil _

/-- A blank in front makes no difference: it is a line of its own, or is trimmed from the first. -/
theorem names_cons_of_blank {c : Char} (blank : isBlank c = true) (text : Text) :
    names (c :: text) = names text := by
  have single : Text.IsBlank [c] := List.forall_mem_singleton.mpr blank
  cases boundary : Text.isLineBoundary c with
  | true => exact names_boundary Text.isUnbroken_nil boundary text
  | false =>
    rw [names, names, Text.boundaryLines, Text.boundaryLines, Text.linesBy,
      if_neg (Bool.eq_false_iff.mp boundary)]
    cases Text.linesBy Text.isLineBoundary text with
    | nil => exact List.filterMap_cons_none (name?_of_isBlank single)
    | cons line lines =>
      have same : name? (c :: line) = name? line := name?_blank_append single line
      rw [List.filterMap_cons, List.filterMap_cons, same]

theorem names_blank_append {space : Text} (blank : space.IsBlank) (text : Text) :
    names (space ++ text) = names text := by
  induction space with
  | nil => rfl
  | cons c space ih =>
    obtain ⟨here, later⟩ := List.forall_mem_cons.mp blank
    rw [List.cons_append, names_cons_of_blank here, ih later]

/-- Space behind a line makes no difference if it breaks the line or nothing is behind it. -/
theorem names_append_blank {line space : Text} (unbroken : line.IsUnbroken) (blank : space.IsBlank)
    {rest : Text} (closes : rest = [] ∨ ∃ c ∈ space, Text.isLineBoundary c = true) :
    names (line ++ (space ++ rest)) = (name? line).toList ++ names rest := by
  induction space generalizing line with
  | nil =>
    have atEnd : rest = [] := closes.resolve_right nofun
    rw [atEnd, List.nil_append, List.append_nil, names_unbroken unbroken]
    exact (List.append_nil _).symm
  | cons c space ih =>
    obtain ⟨here, later⟩ := List.forall_mem_cons.mp blank
    cases boundary : Text.isLineBoundary c with
    | true => rw [List.cons_append, names_boundary unbroken boundary, names_blank_append later]
    | false =>
      have single : Text.IsBlank [c] := List.forall_mem_singleton.mpr here
      have closesLater : rest = [] ∨ ∃ d ∈ space, Text.isLineBoundary d = true := by
        simpa [boundary] using closes
      have step := ih (unbroken.concat boundary) later closesLater
      rw [← name?_append_blank line single, ← step]
      simp

/-- A carriage return and the line feed behind it are one line end or two, with a blank line
between them. -/
theorem names_append_unifyLineEnds {line : Text} (unbroken : line.IsUnbroken) (text : Text) :
    names (line ++ text.unifyLineEnds) = names (line ++ text) := by
  fun_induction Text.unifyLineEnds text generalizing line with
  | case1 => rfl
  | case2 rest ih =>
    have unified : names (Text.unifyLineEnds rest) = names rest := ih Text.isUnbroken_nil
    rw [names_boundary unbroken rfl, names_boundary unbroken rfl, unified,
      names_cons_of_blank (by decide)]
  | case3 c rest _ ih =>
    have unified : names (Text.unifyLineEnds rest) = names rest := ih Text.isUnbroken_nil
    cases boundary : Text.isLineBoundary c with
    | true =>
      have stays : Text.isLineBoundary (if c = '\r' then '\n' else c) = true := by
        split
        · rfl
        · exact boundary
      rw [names_boundary unbroken stays, names_boundary unbroken boundary, unified]
    | false =>
      have noReturn : c ≠ '\r' := by
        rintro rfl
        cases boundary
      rw [if_neg noReturn]
      simpa using ih (unbroken.concat boundary)

theorem names_unifyLineEnds (text : Text) : names text.unifyLineEnds = names text :=
  names_append_unifyLineEnds Text.isUnbroken_nil text

/-! ## Reading what is written -/

theorem IsEntry.names_append {line space rest : Text} {entry : Option Text}
    (isEntry : IsEntry line entry) (blank : space.IsBlank)
    (closes : rest = [] ∨ ∃ c ∈ space, Text.isLineBoundary c = true) :
    names (line ++ (space ++ rest)) = entry.toList ++ names rest := by
  cases isEntry with
  | @name before name after blankBefore isName blankAfter =>
    have closesBoth : rest = [] ∨ ∃ c ∈ after ++ space, Text.isLineBoundary c = true :=
      closes.imp_right fun ⟨c, inSpace, ends⟩ => ⟨c, List.mem_append_right after inSpace, ends⟩
    have read := names_append_blank isName.unbroken
      (List.forall_mem_append.mpr ⟨blankAfter, blank⟩) closesBoth
    rw [isName.name?_eq] at read
    rw [List.append_assoc, names_blank_append blankBefore, ← read]
    simp
  | blank blankLine =>
    rw [names_blank_append blankLine, names_blank_append blank]
    rfl
  | @comment before remark blankBefore unbroken =>
    have isUnbroken : Text.IsUnbroken ('#' :: remark) := List.forall_mem_cons.mpr ⟨rfl, unbroken⟩
    rw [List.append_assoc, names_blank_append blankBefore,
      names_append_blank isUnbroken blank closes, name?_comment]

theorem Writes.names_eq {found : List Text} {text : Text} (writes : Writes found text) :
    names text = found := by
  induction writes with
  | nil => rfl
  | @last line entry isEntry =>
    have nothing : Text.IsBlank [] := nofun
    have alone := isEntry.names_append nothing (.inl rfl)
    rw [List.append_nil, List.append_nil] at alone
    rw [alone]
    exact List.append_nil _
  | line isEntry isEnd _ ih =>
    rw [isEntry.names_append isEnd.isBlank (.inr isEnd.exists_boundary), ih]

theorem Writes.isName {found : List Text} {text : Text} (writes : Writes found text) :
    ∀ name ∈ found, IsName name := by
  induction writes with
  | nil => exact nofun
  | last isEntry => exact isEntry.isName
  | line isEntry _ _ ih => exact List.forall_mem_append.mpr ⟨isEntry.isName, ih⟩

theorem writes_append {line : Text} (unbroken : line.IsUnbroken) (text : Text) :
    Writes (names (line ++ text)) (line ++ text) := by
  induction text generalizing line with
  | nil =>
    rw [List.append_nil, names_unbroken unbroken]
    exact .last (isEntry_name? unbroken)
  | cons c text ih =>
    cases boundary : Text.isLineBoundary c with
    | true =>
      rw [names_boundary unbroken boundary]
      exact .line (isEntry_name? unbroken) (.boundary boundary) (ih Text.isUnbroken_nil)
    | false =>
      rw [List.append_cons]
      exact ih (unbroken.concat boundary)

/-- Every text is an order file, and for one list of names only. -/
theorem writes_iff {found : List Text} {text : Text} : Writes found text ↔ names text = found := by
  constructor
  · exact Writes.names_eq
  · rintro rfl
    exact writes_append Text.isUnbroken_nil text

/-- Reading an order file undoes writing it, and only gives lists of names that can be written. -/
theorem read_eq_ok_iff {source : Source} {path : Text} {found : List Text} :
    read source path = .ok found ↔
      (∀ name ∈ found, IsName name) ∧
        ∃ text, Writes found text ∧ source (Path.plain path) = .ok (Utf8.encode text) := by
  rw [read, map_eq_ok]
  constructor
  · rintro ⟨unified, isText, rfl⟩
    obtain ⟨text, given, rfl⟩ := Source.text_eq_ok_iff.mp isText
    have writes : Writes (names text.unifyLineEnds) text :=
      writes_iff.mpr (names_unifyLineEnds text).symm
    exact ⟨writes.isName, text, writes, given⟩
  · rintro ⟨-, text, writes, given⟩
    exact ⟨text.unifyLineEnds, Source.text_eq_ok_iff.mpr ⟨text, given, rfl⟩,
      (names_unifyLineEnds text).trans writes.names_eq⟩

example : names "\tflex \r\n\x0b # gap-2\u2028\u00a0grid".toList =
    ["flex".toList, "grid".toList] := by decide

end OrderFile

end ClassTidy
