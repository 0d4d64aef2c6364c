import Mathlib.Data.List.Flatten
import RepoGraph.Proofs.Import.GoSpecs

/-!
# Layouts of Go imports

Import declarations may be broken into lines in many ways, but a scan reads them line by line. On
the line that opens a block it finds every spec. On a further line it finds only the spec at the
start, and only a closing parenthesis at the start closes the block. So a block is read as it is
meant exactly if behind its first line every spec stands alone on its line and so does the
parenthesis. There must be blanks behind a name and behind the keyword of a single import, too.
-/

namespace RepoGraph

open Text

namespace Import.Go

inductive Declaration where
  /-- A spec. Without blanks in front of it, it does not run the keyword on. -/
  | single (indent afterKeyword : Blanks) (spec : Spec) (ending : Separators)
    (apart : afterKeyword.val = [] → ∀ c ∈ spec.text.head?, isWordChar c = false)
  /-- A row for each line of a block. The first one stands behind the opening parenthesis, and the
  closing parenthesis behind the last one. -/
  | block (indent afterKeyword : Blanks) (first : Row) (rest : List Row) (ending : Separators)

structure SpecLine where
  text : List Char
  specs : List Spec

/-- The lines of rows up to the closing parenthesis, the first one behind `before`, with what
`specs` takes from each row. -/
def rowLines (specs : Row → List Spec) (ending : Separators) (before : List Char) (row : Row) :
    List Row → List SpecLine
  | [] => [⟨before ++ (row.text ++ ')' :: ending.val), specs row⟩]
  | next :: rest => ⟨before ++ row.text, specs row⟩ :: rowLines specs ending [] next rest

namespace Declaration

def lines : Declaration → List SpecLine
  | single indent afterKeyword spec ending _ =>
    [⟨opening indent afterKeyword ++ (spec.text ++ ending.val), [spec]⟩]
  | block indent afterKeyword first rest ending =>
    rowLines Row.specs ending (opening indent afterKeyword ++ ['(']) first rest

/-- Whether the declaration is laid out so that it is read as it is meant. -/
def isReadable : Declaration → Bool
  | single _ afterKeyword spec _ _ => !afterKeyword.val.isEmpty && spec.isSpaced
  | block _ _ _ rest _ => rest.all Row.isReadable && rest.getLast?.all (·.specs.isEmpty)

def readLines : Declaration → List SpecLine
  | single indent afterKeyword spec ending _ =>
    [⟨opening indent afterKeyword ++ (spec.text ++ ending.val),
      if !afterKeyword.val.isEmpty && spec.isSpaced then [spec] else []⟩]
  | block indent afterKeyword first rest ending =>
    match rest with
    | [] =>
      [⟨opening indent afterKeyword ++ ['('] ++ (first.text ++ ')' :: ending.val), first.specs⟩]
    | next :: rest =>
      ⟨opening indent afterKeyword ++ ['('] ++ first.text, first.specs⟩ ::
        rowLines Row.found ending [] next rest

/-- Whether the declaration is still taken to be open behind its end. -/
def leavesOpen : Declaration → Bool
  | single _ _ _ _ _ => false
  | block _ _ _ rest _ => rest.getLast?.any (!·.specs.isEmpty)

end Declaration

inductive Part where
  | imports (declaration : Declaration)
  | other (line : OtherLine)

def Part.lines : Part → List SpecLine
  | imports declaration => declaration.lines
  | other line => [⟨line.text, []⟩]

/-- The references that lines make by their specs, behind `count` other lines. -/
def hits (count : Nat) : List SpecLine → List Hit
  | [] => []
  | line :: lines =>
    (line.specs.map fun spec => ⟨count + 1, String.ofList spec.path, .imports⟩) ++
      hits (count + 1) lines

/-- On lines exactly their specs are found, from one state to another. -/
structure Reads (before : ScanState) (lines : List SpecLine) (after : ScanState) : Prop where
  stateAfter : Detector.go.stateAfter before (lines.map SpecLine.text) = after
  hitsFrom : ∀ count, Detector.go.hitsFrom before count (lines.map SpecLine.text) = hits count lines

private theorem hits_append (count : Nat) (lines more : List SpecLine) :
    hits count (lines ++ more) = hits count lines ++ hits (count + lines.length) more := by
  induction lines generalizing count with
  | nil => rfl
  | cons line lines ih =>
    rw [List.cons_append, hits, ih, hits, List.append_assoc, List.length_cons, Nat.add_assoc,
      Nat.add_comm 1]

namespace Reads

variable {before middle after : ScanState} {line : SpecLine} {lines more : List SpecLine}

theorem nil : Reads before [] before := ⟨rfl, fun _ => rfl⟩

theorem cons
    (hline : Detector.go.readLine before line.text =
      (middle, line.specs.map fun spec => (spec.path, .imports)))
    (h : Reads middle lines after) : Reads before (line :: lines) after where
  stateAfter := by
    rw [List.map_cons, Detector.stateAfter_cons, hline]
    exact h.stateAfter
  hitsFrom count := by
    rw [List.map_cons, Detector.hitsFrom, Detector.lineHits, hline, h.hitsFrom, List.map_map]
    rfl

theorem append (h : Reads before lines middle) (hmore : Reads middle more after) :
    Reads before (lines ++ more) after where
  stateAfter := by
    rw [List.map_append, Detector.stateAfter_append, h.stateAfter, hmore.stateAfter]
  hitsFrom count := by
    rw [List.map_append, Detector.hitsFrom_append, h.stateAfter, h.hitsFrom, hmore.hitsFrom,
      hits_append, List.length_map]

end Reads

private theorem Row.exists_mem_text {row : Row} (hne : row.specs ≠ []) :
    ∃ c ∈ row.text, isBlank c = false := by
  obtain ⟨indent, entries⟩ := row
  cases entries with
  | nil => exact absurd rfl hne
  | cons entry entries =>
    obtain ⟨spec, separators⟩ := entry
    obtain ⟨c, s, htext, hc, -⟩ := spec.text_eq_cons
    refine ⟨c, ?_, hc⟩
    rw [Row.text_cons, htext]
    simp

private theorem Row.text_of_specs_eq_nil {row : Row} (h : row.specs = []) :
    row.text = row.indent.val := by
  rw [Row.text, List.map_eq_nil_iff.mp h, List.flatMap_nil, List.append_nil]

private theorem Row.found_of_specs_eq_nil {row : Row} (h : row.specs = []) : row.found = [] := by
  rw [Row.found, h]
  rfl

private theorem reads_row (row : Row) :
    Reads ⟨.code, true⟩ [⟨row.text, row.found⟩] ⟨.code, true⟩ := by
  refine Reads.cons ?_ Reads.nil
  by_cases hspecs : row.specs = []
  · have hblank : allBlank row.indent.val = true := List.all_eq_true.mpr row.indent.property
    rw [readLine_of_inert row.inert_text, Row.text_of_specs_eq_nil hspecs, hblank, if_pos rfl,
      Row.found_of_specs_eq_nil hspecs]
    rfl
  · obtain ⟨c, hmem, hc⟩ := Row.exists_mem_text hspecs
    have hread := readLine_row hspecs []
    rw [List.append_nil] at hread
    rw [readLine_of_mem row.inert_text hmem hc, hread]

private theorem reads_lastRow (row : Row) (ending : Separators) :
    Reads ⟨.code, true⟩ [⟨row.text ++ ')' :: ending.val, row.found⟩]
      ⟨.code, !row.specs.isEmpty⟩ := by
  refine Reads.cons ?_ Reads.nil
  have hinert := row.inert_text.append (inert_closing ending)
  rw [readLine_of_mem hinert (List.mem_append_right _ List.mem_cons_self) (by decide)]
  by_cases hspecs : row.specs = []
  · rw [Row.text_of_specs_eq_nil hspecs, readLine_close, Row.found_of_specs_eq_nil hspecs, hspecs]
    rfl
  · have hopen : (!row.specs.isEmpty) = true := by simpa using hspecs
    rw [readLine_row hspecs, hopen]

private theorem reads_rowLines (ending : Separators) (row : Row) (rest : List Row) :
    Reads ⟨.code, true⟩ (rowLines Row.found ending [] row rest)
      ⟨.code, (row :: rest).getLast?.any (!·.specs.isEmpty)⟩ := by
  induction rest generalizing row with
  | nil => exact reads_lastRow row ending
  | cons next rest ih => exact (reads_row row).append (ih next)

private theorem mem_opening (indent afterKeyword : Blanks) :
    'i' ∈ opening indent afterKeyword := by
  have hkeyword : 'i' ∈ "import".toList := by decide
  exact List.mem_append_right _ (List.mem_append_left _ hkeyword)

private theorem reads_opening (indent afterKeyword : Blanks) (row : Row) {closing : List Char}
    (hinert : Inert closing) (hclosing : ∀ c ∈ closing.head?, c = ')') :
    Reads .clear [⟨opening indent afterKeyword ++ ['('] ++ (row.text ++ closing),
      row.specs⟩] ⟨.code, closing.isEmpty⟩ := by
  refine Reads.cons ?_ Reads.nil
  have hparen : Inert (opening indent afterKeyword ++ ['(']) :=
    (inert_opening indent afterKeyword).append (Inert.of_notMem (by decide))
  have hmem := List.mem_append_left ['('] (mem_opening indent afterKeyword)
  rw [ScanState.clear, readLine_of_mem (hparen.append (row.inert_text.append hinert))
    (List.mem_append_left _ hmem) (by decide), readLine_opening _ _ _ hclosing]

/-- What a declaration is read as, and whether it is still open behind its end. -/
theorem reads_declaration (declaration : Declaration) :
    Reads .clear declaration.readLines ⟨.code, declaration.leavesOpen⟩ := by
  cases declaration with
  | single indent afterKeyword spec ending _ =>
    refine Reads.cons ?_ Reads.nil
    have hinert := (inert_opening indent afterKeyword).append
      (spec.inert_text.append (inert_separators ending))
    have hmem := mem_opening indent afterKeyword
    rw [ScanState.clear, readLine_of_mem hinert (List.mem_append_left _ hmem) (by decide),
      readLine_single]
    cases !afterKeyword.val.isEmpty && spec.isSpaced <;> rfl
  | block indent afterKeyword first rest ending =>
    cases rest with
    | nil =>
      exact reads_opening indent afterKeyword first (inert_closing ending) (by rintro _ ⟨⟩; rfl)
    | cons next rest =>
      have hopening := reads_opening indent afterKeyword first
        (Inert.of_notMem List.not_mem_nil) (by rintro _ ⟨⟩)
      rw [List.append_nil] at hopening
      exact hopening.append (reads_rowLines ending next rest)

private theorem reads_other (line : OtherLine) : Reads .clear [⟨line.text, []⟩] .clear := by
  refine Reads.cons ?_ Reads.nil
  have hread : CommentState.readLine Detector.go.commentStyle .code line.text =
      (.code, line.text) :=
    CommentState.readSlash_of_not_isInfix line.not_isInfix_lineComment line.not_isInfix_blockComment
  have hcode : Detector.go.readCode false line.text = (false, []) := readLine_other line
  rw [ScanState.clear, Detector.readLine_of_allCode hread, hcode, ite_self]
  rfl

private theorem Row.found_eq_specs_iff {row : Row} :
    row.found = row.specs ↔ row.isReadable = true := by
  rw [found, isReadable]
  cases row.specs with
  | nil => exact ⟨fun _ => rfl, fun _ => rfl⟩
  | cons spec specs =>
    rw [List.head?_cons]
    cases specs with
    | nil => cases hspaced : spec.isSpaced <;> simp [Option.filter, hspaced]
    | cons other specs => cases hspaced : spec.isSpaced <;> simp [Option.filter, hspaced]

private theorem map_text_rowLines (specs specs' : Row → List Spec) (ending : Separators)
    (before : List Char) (row : Row) (rest : List Row) :
    (rowLines specs ending before row rest).map SpecLine.text =
      (rowLines specs' ending before row rest).map SpecLine.text := by
  induction rest generalizing before row with
  | nil => rfl
  | cons next rest ih =>
    rw [rowLines, rowLines, List.map_cons, List.map_cons, ih]

private theorem flatMap_specs_rowLines (specs : Row → List Spec) (ending : Separators)
    (before : List Char) (row : Row) (rest : List Row) :
    (rowLines specs ending before row rest).flatMap SpecLine.specs =
      (row :: rest).flatMap specs := by
  induction rest generalizing before row with
  | nil => rfl
  | cons next rest ih =>
    rw [rowLines, List.flatMap_cons, ih]
    rfl

private theorem rowLines_congr {specs specs' : Row → List Spec} (ending : Separators)
    (before : List Char) {row : Row} {rest : List Row} (h : ∀ r ∈ row :: rest, specs r = specs' r) :
    rowLines specs ending before row rest = rowLines specs' ending before row rest := by
  induction rest generalizing before row with
  | nil => rw [rowLines, rowLines, h row List.mem_cons_self]
  | cons next rest ih =>
    obtain ⟨hrow, hrest⟩ := List.forall_mem_cons.mp h
    rw [rowLines, rowLines, hrow, ih [] hrest]

private theorem length_hits (count : Nat) (lines : List SpecLine) :
    (hits count lines).length = (lines.flatMap SpecLine.specs).length := by
  induction lines generalizing count with
  | nil => rfl
  | cons line lines ih =>
    rw [hits, List.length_append, List.length_map, ih, List.flatMap_cons, List.length_append]

private theorem Row.found_sublist (row : Row) : row.found.Sublist row.specs := by
  rw [found]
  cases row.specs with
  | nil => exact List.Sublist.refl []
  | cons spec specs =>
    rw [List.head?_cons]
    cases hspaced : spec.isSpaced with
    | true => simp [Option.filter, hspaced]
    | false => simp [Option.filter, hspaced]

private theorem isReadable_of_length_eq {rows : List Row}
    (h : (rows.flatMap Row.found).length = (rows.flatMap Row.specs).length) :
    ∀ row ∈ rows, row.isReadable = true := by
  induction rows with
  | nil => exact fun _ hrow => nomatch hrow
  | cons row rows ih =>
    rw [List.flatMap_cons, List.flatMap_cons, List.length_append, List.length_append] at h
    have hrow := row.found_sublist.length_le
    have hrows := (List.Sublist.flatMap_right rows fun row _ => row.found_sublist).length_le
    refine List.forall_mem_cons.mpr ⟨Row.found_eq_specs_iff.mp ?_, ih (by omega)⟩
    exact row.found_sublist.eq_of_length (by omega)

private theorem Declaration.map_text_readLines (declaration : Declaration) :
    declaration.readLines.map SpecLine.text = declaration.lines.map SpecLine.text := by
  cases declaration with
  | single => rfl
  | block indent afterKeyword first rest ending =>
    cases rest with
    | nil => rfl
    | cons next rest =>
      rw [readLines, lines, rowLines, List.map_cons, List.map_cons,
        map_text_rowLines Row.found Row.specs]

/-- A declaration is readable exactly if all its specs are found and it is closed at its end. -/
theorem Declaration.isReadable_iff (declaration : Declaration) (count : Nat) :
    declaration.isReadable = true ↔
      hits count declaration.readLines = hits count declaration.lines ∧
        declaration.leavesOpen = false := by
  cases declaration with
  | single indent afterKeyword spec ending _ =>
    rw [isReadable, readLines, lines, leavesOpen, and_iff_left rfl]
    cases !afterKeyword.val.isEmpty && spec.isSpaced <;> simp [hits]
  | block indent afterKeyword first rest ending =>
    cases rest with
    | nil => exact ⟨fun _ => ⟨rfl, rfl⟩, fun _ => rfl⟩
    | cons next rest =>
      have hopen : (next :: rest).getLast?.all (·.specs.isEmpty) =
          !(next :: rest).getLast?.any (!·.specs.isEmpty) := by
        cases (next :: rest).getLast? <;> simp
      rw [isReadable, leavesOpen, hopen, Bool.and_eq_true, Bool.not_eq_true', List.all_eq_true]
      refine and_congr_left fun _ => ?_
      rw [readLines, lines, rowLines, hits, hits, List.append_cancel_left_eq]
      constructor
      · intro hreadable
        have hfound : ∀ row ∈ next :: rest, row.found = row.specs := fun row hrow =>
          Row.found_eq_specs_iff.mpr (hreadable row hrow)
        rw [rowLines_congr ending [] hfound]
      · intro heq
        have hlength := congrArg List.length heq
        rw [length_hits, length_hits, flatMap_specs_rowLines, flatMap_specs_rowLines] at hlength
        exact isReadable_of_length_eq hlength

/-- Whether a text has the lines of some parts. -/
def HasParts (content : String) (parts : List Part) : Prop :=
  lines content.toList = (parts.flatMap Part.lines).map SpecLine.text

def partHits (parts : List Part) : List Hit := hits 0 (parts.flatMap Part.lines)

def caseLine : OtherLine where
  text := "\tcase \"x\":".toList
  isWordChar_head rest h := by
    have hskip : skipBlanks "\tcase \"x\":".toList = 'c' :: "ase \"x\":".toList := by decide
    rw [hskip] at h
    exact absurd (List.cons.inj h).1 (by decide)
  not_isInfix_lineComment := not_isInfix_of_notMem List.mem_cons_self (by decide)
  not_isInfix_blockComment := not_isInfix_of_notMem List.mem_cons_self (by decide)

private theorem hitsFrom_caseLine (opened : Bool) (count : Nat) :
    Detector.go.hitsFrom ⟨.code, opened⟩ count [caseLine.text] =
      if opened then [⟨count + 1, "x", .imports⟩] else [] := by
  have hread : (Detector.go.readLine ⟨.code, opened⟩ caseLine.text).2 =
      if opened then [("x".toList, .imports)] else [] := by
    cases opened <;> decide +kernel
  rw [Detector.hitsFrom, Detector.hitsFrom, List.append_nil, Detector.lineHits, hread]
  cases opened <;> rfl

private theorem line_le_of_mem_hits {count : Nat} {lines : List SpecLine} {hit : Hit}
    (h : hit ∈ hits count lines) : hit.line ≤ count + lines.length := by
  induction lines generalizing count with
  | nil => cases h
  | cons line lines ih =>
    rw [hits] at h
    rw [List.length_cons]
    rcases List.mem_append.mp h with h | h
    · obtain ⟨spec, -, rfl⟩ := List.mem_map.mp h
      change count + 1 ≤ _
      omega
    · have := ih h
      omega

/-- In front of a line with a string a declaration is read as it is meant exactly if it is
readable: what is still open takes the string for a path. -/
theorem Declaration.hits_append_iff (declaration : Declaration) {count : Nat} {hit : Hit}
    (hline : count + declaration.lines.length < hit.line) :
    hits count declaration.readLines ++ (if declaration.leavesOpen then [hit] else []) =
      hits count declaration.lines ↔ declaration.isReadable = true := by
  rw [declaration.isReadable_iff count]
  cases declaration.leavesOpen with
  | false => rw [if_neg Bool.false_ne_true, List.append_nil, and_iff_left rfl]
  | true =>
    rw [if_pos rfl]
    refine ⟨fun heq => ?_, fun h => Bool.noConfusion h.2⟩
    have hmem : hit ∈ hits count declaration.lines :=
      heq ▸ List.mem_append_right _ (List.mem_singleton_self hit)
    exact absurd (line_le_of_mem_hits hmem) (Nat.not_le.mpr hline)

section Scan

variable {parts : List Part}
  (hparts : ∀ declaration, Part.imports declaration ∈ parts → declaration.isReadable = true)
include hparts

private theorem reads_parts : Reads .clear (parts.flatMap Part.lines) .clear := by
  induction parts with
  | nil => exact Reads.nil
  | cons part parts ih =>
    have hrest := ih fun declaration h => hparts declaration (List.mem_cons_of_mem part h)
    rw [List.flatMap_cons]
    refine Reads.append ?_ hrest
    cases part with
    | other line => exact reads_other line
    | imports declaration =>
      have hreadable := hparts declaration List.mem_cons_self
      have hread := reads_declaration declaration
      have hclosed := ((declaration.isReadable_iff 0).mp hreadable).2
      refine ⟨?_, fun count => ?_⟩
      · rw [Part.lines, ← declaration.map_text_readLines, hread.stateAfter, hclosed]
        rfl
      · rw [Part.lines, ← declaration.map_text_readLines, hread.hitsFrom,
          ((declaration.isReadable_iff count).mp hreadable).1]

/-- Where all import declarations are readable, a scan finds the path of every spec, in order, and
nothing else. A further declaration in front of a line with a string is read so only if it is
readable, too. -/
theorem scan_parts :
    (∀ content, HasParts content parts → Detector.go.scan content = partHits parts) ∧
    ∀ declaration content,
      let more := parts ++ [Part.imports declaration, Part.other caseLine]
      HasParts content more →
        (Detector.go.scan content = partHits more ↔ declaration.isReadable = true) := by
  have hreads := reads_parts hparts
  constructor
  · intro content hcontent
    rw [Detector.scan_eq, hcontent, hreads.hitsFrom, partHits]
  · intro declaration content more hcontent
    have hlines : more.flatMap Part.lines =
        parts.flatMap Part.lines ++ (declaration.lines ++ [⟨caseLine.text, []⟩]) := by
      rw [List.flatMap_append]
      rfl
    have hread := reads_declaration declaration
    rw [Detector.scan_eq, hcontent, partHits, hlines, List.map_append, Detector.hitsFrom_append,
      hreads.hitsFrom, hreads.stateAfter, hits_append, List.append_cancel_left_eq, List.map_append,
      Detector.hitsFrom_append, ← declaration.map_text_readLines, hread.hitsFrom, hread.stateAfter,
      List.map_singleton, hitsFrom_caseLine, hits_append]
    have hlength : declaration.readLines.length = declaration.lines.length := by
      simpa using congrArg List.length declaration.map_text_readLines
    have hnone (count : Nat) : hits count [⟨caseLine.text, []⟩] = [] := rfl
    simp only [hnone, List.append_nil, List.length_map]
    apply declaration.hits_append_iff
    rw [hlength]
    exact Nat.lt_succ_self _

end Scan

def noBlanks : Blanks := ⟨[], List.all_eq_true.mp rfl⟩

def blank : Blanks := ⟨[' '], List.all_eq_true.mp rfl⟩

def tab : Blanks := ⟨['\t'], List.all_eq_true.mp rfl⟩

def noSeparators : Separators := ⟨[], List.all_eq_true.mp rfl⟩

def fmtSpec : Spec where
  name := none
  path := "fmt".toList
  path_ne_nil := by decide
  isPathChar_of_mem := List.all_eq_true.mp (by decide)
  not_isInfix_path := not_isInfix_of_notMem List.mem_cons_self (by decide)

def driverSpec : Spec where
  name := some (⟨"_".toList, by decide, List.all_eq_true.mp (by decide)⟩, blank)
  path := "lib.io/pq".toList
  path_ne_nil := by decide
  isPathChar_of_mem := List.all_eq_true.mp (by decide)
  not_isInfix_path := not_isInfix_of_notMem (c := '*') (by decide) (by decide)

def packageLine : OtherLine where
  text := "package api".toList
  isWordChar_head rest h := by
    have hskip : skipBlanks "package api".toList = 'p' :: "ackage api".toList := by decide
    rw [hskip] at h
    exact absurd (List.cons.inj h).1 (by decide)
  not_isInfix_lineComment := not_isInfix_of_notMem List.mem_cons_self (by decide)
  not_isInfix_blockComment := not_isInfix_of_notMem List.mem_cons_self (by decide)

def tidyBlock : Declaration :=
  .block noBlanks blank ⟨noBlanks, []⟩
    [⟨tab, [(fmtSpec, noSeparators)]⟩, ⟨tab, [(driverSpec, noSeparators)]⟩, ⟨noBlanks, []⟩]
    noSeparators

def tidyFile : List Part :=
  [.other packageLine, .imports tidyBlock,
    .imports (.single noBlanks blank fmtSpec noSeparators nofun), .other caseLine]

theorem scan_parts_tidyFile :
    (∀ declaration, Part.imports declaration ∈ tidyFile → declaration.isReadable = true) ∧
    ∃ content, HasParts content tidyFile ∧ content =
        "package api\nimport (\n\t\"fmt\"\n\t_ \"lib.io/pq\"\n)\nimport \"fmt\"\n\tcase \"x\":\n" ∧
      Detector.go.scan content =
        [⟨3, "fmt", .imports⟩, ⟨4, "lib.io/pq", .imports⟩, ⟨6, "fmt", .imports⟩] := by
  have hreadable : ∀ declaration, Part.imports declaration ∈ tidyFile →
      declaration.isReadable = true := by
    intro declaration h
    simp only [tidyFile, List.mem_cons, Part.imports.injEq, reduceCtorEq, List.not_mem_nil,
      false_or, or_false] at h
    rcases h with rfl | rfl <;> decide
  have hparts : HasParts
      "package api\nimport (\n\t\"fmt\"\n\t_ \"lib.io/pq\"\n)\nimport \"fmt\"\n\tcase \"x\":\n"
      tidyFile := by
    unfold HasParts
    decide +kernel
  exact ⟨hreadable, _, hparts, rfl, (scan_parts hreadable).1 _ hparts⟩

/-- A block that is closed right behind its last spec stays open, so that a string behind it is
taken for a path. -/
theorem scan_reads_strings :
    ¬ ∀ parts content, HasParts content parts → Detector.go.scan content = partHits parts := by
  intro hall
  have hparts : HasParts "import (\n\t\"fmt\")\n\tcase \"x\":\n"
      [.imports (.block noBlanks blank ⟨noBlanks, []⟩ [⟨tab, [(fmtSpec, noSeparators)]⟩]
        noSeparators), .other caseLine] := by
    unfold HasParts
    decide +kernel
  have hscan : Detector.go.scan "import (\n\t\"fmt\")\n\tcase \"x\":\n" =
      [⟨2, "fmt", .imports⟩, ⟨3, "x", .imports⟩] := by decide +kernel
  have hhits := hall _ _ hparts
  rw [hscan] at hhits
  revert hhits
  decide +kernel

end Import.Go

end RepoGraph
