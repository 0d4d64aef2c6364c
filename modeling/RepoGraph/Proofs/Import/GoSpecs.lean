import RepoGraph.Proofs.Source.LineComment
import RepoGraph.Proofs.Text.Search

/-!
# Go import specs on a line

A line of Go may hold specs: behind the keyword of an import, behind the parenthesis that opens a
block, or within a block. On the line of the opening parenthesis every one of them is found, and on
the others only the one at the start.
-/

namespace RepoGraph

open Text

namespace Import.Go

def isNameChar (c : Char) : Bool := isWordChar c || c == '.'

/-- Whether a character can stand in the path of a package: no quote, closing parenthesis, semicolon
or blank. -/
def isPathChar (c : Char) : Bool := !(c == '"' || c == ')' || c == ';' || isBlank c)

def isSeparator (c : Char) : Bool := isBlank c || c == ';'

abbrev Blanks := { s : List Char // ∀ c ∈ s, isBlank c = true }

/-- Blanks and semicolons. -/
abbrev Separators := { s : List Char // ∀ c ∈ s, isSeparator c = true }

/-- A name for a package: a word, an underscore or a dot. -/
structure PackageName where
  text : List Char
  ne_nil : text ≠ []
  isNameChar_of_mem : ∀ c ∈ text, isNameChar c = true

/-- The path of a package, and the name that it is given with the blanks behind that. -/
structure Spec where
  name : Option (PackageName × Blanks)
  path : List Char
  path_ne_nil : path ≠ []
  isPathChar_of_mem : ∀ c ∈ path, isPathChar c = true
  /-- The path opens no block comment. -/
  not_isInfix_path : ¬ ['/', '*'] <:+: path

namespace Spec

def front (spec : Spec) : List Char :=
  spec.name.elim [] fun named => named.1.text ++ named.2.val

def text (spec : Spec) : List Char := spec.front ++ '"' :: (spec.path ++ ['"'])

/-- Whether there are blanks behind the name, if there is one. -/
def isSpaced (spec : Spec) : Bool := spec.name.all fun named => !named.2.val.isEmpty

end Spec

/-- What stands on a line of a block: specs, and the separators behind each of them. -/
structure Row where
  indent : Blanks
  entries : List (Spec × Separators)

namespace Row

def specs (row : Row) : List Spec := row.entries.map Prod.fst

def text (row : Row) : List Char :=
  row.indent.val ++ row.entries.flatMap fun entry => entry.1.text ++ entry.2.val

def found (row : Row) : List Spec := (row.specs.head?.filter Spec.isSpaced).toList

/-- Whether there is at most one spec on the row, and that one is spaced. -/
def isReadable (row : Row) : Bool :=
  match row.specs with
  | [] => true
  | [spec] => spec.isSpaced
  | _ :: _ :: _ => false

end Row

def opening (indent afterKeyword : Blanks) : List Char :=
  indent.val ++ ("import".toList ++ afterKeyword.val)

/-- A line without an import declaration and without comments. -/
structure OtherLine where
  text : List Char
  isWordChar_head : ∀ rest, skipBlanks text = "import".toList ++ rest → rest.head?.any isWordChar
  not_isInfix_lineComment : ¬ ['/', '/'] <:+: text
  not_isInfix_blockComment : ¬ ['/', '*'] <:+: text

def blankPoints : List Nat :=
  [0x9, 0xA, 0xB, 0xC, 0xD, 0x20, 0x85, 0xA0, 0x1680, 0x2000, 0x2001, 0x2002, 0x2003, 0x2004,
    0x2005, 0x2006, 0x2007, 0x2008, 0x2009, 0x200A, 0x2028, 0x2029, 0x202F, 0x205F, 0x3000]

private theorem mem_blankPoints {c : Char} (h : isBlank c = true) : c.toNat ∈ blankPoints := by
  simp only [isBlank, Bool.or_eq_true, Bool.and_eq_true, decide_eq_true_eq, beq_iff_eq] at h
  simp only [blankPoints, List.mem_cons, List.not_mem_nil, or_false]
  omega

private theorem isNameChar_of_isBlank {c : Char} (h : isBlank c = true) : isNameChar c = false := by
  have hpoints : ∀ n ∈ blankPoints, isNameChar (Char.ofNat n) = false := by decide +kernel
  rw [← Char.ofNat_toNat c]
  exact hpoints _ (mem_blankPoints h)

theorem isBlank_of_isNameChar {c : Char} (h : isNameChar c = true) : isBlank c = false := by
  by_contra hblank
  rw [isNameChar_of_isBlank (Bool.not_eq_false _ ▸ hblank)] at h
  cases h

private theorem ne_of_isNameChar {c d : Char} (h : isNameChar c = true)
    (hd : isNameChar d = false) :
    c ≠ d :=
  ne_of_apply_ne isNameChar (by rw [h, hd]; decide)

private theorem ne_of_isSeparator {c d : Char} (h : isSeparator c = true)
    (hd : isSeparator d = false) :
    c ≠ d :=
  ne_of_apply_ne isSeparator (by rw [h, hd]; decide)

theorem skipBlanks_append (blanks : Blanks) {c : Char} (hc : isBlank c = false)
    (rest : List Char) : skipBlanks (blanks.val ++ c :: rest) = c :: rest := by
  apply dropWhile_append_of_head? blanks.property
  rintro _ ⟨⟩
  exact hc

private theorem blanks?_append (blanks : Blanks) {c : Char} (hc : isBlank c = false)
    (rest : List Char) :
    blanks? (blanks.val ++ c :: rest) =
      if blanks.val.isEmpty then none else some (c :: rest) := by
  obtain ⟨blanks, hblanks⟩ := blanks
  cases blanks with
  | nil =>
    rw [List.nil_append, blanks?, hc]
    rfl
  | cons d blanks =>
    obtain ⟨hd, hblanks⟩ := List.forall_mem_cons.mp hblanks
    rw [List.cons_append, blanks?, if_pos hd, skipBlanks_append ⟨blanks, hblanks⟩ hc]
    rfl

namespace Spec

variable (spec : Spec)

private theorem text_append (rest : List Char) :
    spec.text ++ rest = spec.front ++ '"' :: (spec.path ++ '"' :: rest) := by
  simp [text]

private theorem of_mem_path {c : Char} (h : c ∈ spec.path) :
    c ≠ '"' ∧ c ≠ ')' ∧ c ≠ ';' ∧ isBlank c = false := by
  have hchar := spec.isPathChar_of_mem c h
  simpa [isPathChar, and_assoc] using hchar

private theorem of_mem_front {c : Char} (h : c ∈ spec.front) :
    isNameChar c = true ∨ isBlank c = true := by
  rw [front] at h
  cases hname : spec.name with
  | none =>
    rw [hname] at h
    cases h
  | some named =>
    obtain ⟨name, blanks⟩ := named
    rw [hname] at h
    rcases List.mem_append.mp h with h | h
    · exact Or.inl (name.isNameChar_of_mem c h)
    · exact Or.inr (blanks.property c h)

private theorem ne_of_mem_front {c d : Char} (h : c ∈ spec.front) (hname : isNameChar d = false)
    (hblank : isBlank d = false) : c ≠ d := by
  rcases spec.of_mem_front h with h | h
  · exact ne_of_isNameChar h hname
  · exact ne_of_apply_ne isBlank (by rw [h, hblank]; decide)

private theorem ne_of_mem_text {c : Char} (h : c ∈ spec.text) : c ≠ ')' := by
  rcases List.mem_append.mp h with h | h
  · exact spec.ne_of_mem_front h (by decide) (by decide)
  · rcases List.mem_cons.mp h with rfl | h
    · decide
    · rcases List.mem_append.mp h with h | h
      · exact (spec.of_mem_path h).2.1
      · rw [List.mem_singleton.mp h]
        decide

theorem text_eq_cons : ∃ c s, spec.text = c :: s ∧ isBlank c = false ∧ c ≠ '(' ∧ c ≠ ')' := by
  cases hname : spec.name with
  | none => exact ⟨'"', spec.path ++ ['"'], by rw [text, front, hname]; rfl, by decide⟩
  | some named =>
    obtain ⟨name, blanks⟩ := named
    obtain ⟨c, s, htext⟩ := List.exists_cons_of_ne_nil name.ne_nil
    have hc : isNameChar c = true := name.isNameChar_of_mem c (htext ▸ List.mem_cons_self)
    refine ⟨c, s ++ blanks.val ++ '"' :: (spec.path ++ ['"']), ?_, isBlank_of_isNameChar hc,
      ne_of_isNameChar hc (by decide), ne_of_isNameChar hc (by decide)⟩
    rw [text, front, hname, Option.elim_some, htext]
    rfl

private theorem skipBlanks_append_text (blanks : Blanks) (rest : List Char) :
    skipBlanks (blanks.val ++ (spec.text ++ rest)) = spec.text ++ rest := by
  obtain ⟨c, s, htext, hc, -⟩ := spec.text_eq_cons
  rw [htext, List.cons_append, skipBlanks_append blanks hc]

end Spec

private theorem pathLiteral?_eq {path : List Char} (hne : path ≠ []) (hpath : '"' ∉ path)
    (rest : List Char) : pathLiteral? ('"' :: (path ++ '"' :: rest)) = some (path, rest) := by
  obtain ⟨c, path, rfl⟩ := List.exists_cons_of_ne_nil hne
  have hinside : ∀ d ∈ c :: path, (d != '"') = true := by
    intro d hd
    rw [bne_iff_ne]
    rintro rfl
    exact hpath hd
  rw [pathLiteral?, List.takeWhile_append_of_pos hinside, List.dropWhile_append_of_pos hinside,
    List.takeWhile_cons_of_neg (by decide), List.dropWhile_cons_of_neg (by decide),
    List.append_nil]

private theorem pathLiteral?_eq_none {c : Char} (h : c ≠ '"') (s : List Char) :
    pathLiteral? (c :: s) = none := by
  unfold pathLiteral?
  split
  · rename_i heq
    exact absurd (List.cons.inj heq).1 h
  · rfl

private theorem pathLiteral?_path (spec : Spec) (rest : List Char) :
    pathLiteral? ('"' :: (spec.path ++ '"' :: rest)) = some (spec.path, rest) :=
  pathLiteral?_eq spec.path_ne_nil (fun h => (spec.of_mem_path h).1 rfl) rest

private theorem isNameChar_head?_append (blanks : Blanks) (rest : List Char) :
    ∀ c ∈ (blanks.val ++ '"' :: rest).head?, isNameChar c = false := by
  obtain ⟨blanks, hblanks⟩ := blanks
  rintro c hc
  cases blanks with
  | nil =>
    cases hc
    decide
  | cons d blanks =>
    cases hc
    exact isNameChar_of_isBlank (hblanks c List.mem_cons_self)

private theorem spec?_text (spec : Spec) (rest : List Char) :
    spec? (spec.text ++ rest) = if spec.isSpaced then some spec.path else none := by
  rw [spec.text_append, Spec.front, Spec.isSpaced]
  unfold spec?
  dsimp only
  cases spec.name with
  | none =>
    rw [Option.elim_none, List.nil_append, List.takeWhile_cons_of_neg (by decide)]
    dsimp only
    rw [Option.bind_some, pathLiteral?_path]
    rfl
  | some named =>
    obtain ⟨name, blanks⟩ := named
    have hstop := isNameChar_head?_append blanks (spec.path ++ '"' :: rest)
    have htake := takeWhile_append_of_head? name.isNameChar_of_mem hstop
    have hdrop := dropWhile_append_of_head? name.isNameChar_of_mem hstop
    obtain ⟨c, s, hname⟩ := List.exists_cons_of_ne_nil name.ne_nil
    unfold isNameChar at htake hdrop
    rw [Option.elim_some, List.append_assoc, htake, hdrop, hname]
    dsimp only
    rw [blanks?_append blanks (by decide), Option.all_some]
    cases blanks.val.isEmpty with
    | true => rfl
    | false =>
      rw [if_neg Bool.false_ne_true, Option.bind_some, pathLiteral?_path]
      rfl

def quotedPaths (before : Option Char) (s : List Char) : List (List Char) :=
  findAll (fun _ => pathLiteral?) length_pathLiteral? before s

private theorem quotedPaths_append {s : List Char} (hs : '"' ∉ s) (t : List Char)
    (before : Option Char) :
    quotedPaths before (s ++ t) = quotedPaths (s.getLast?.or before) t := by
  apply findAll_append
  intro before u hu hsuffix
  obtain ⟨c, u, rfl⟩ := List.exists_cons_of_ne_nil hu
  exact pathLiteral?_eq_none (ne_of_mem_of_not_mem (hsuffix.subset List.mem_cons_self) hs) _

private theorem quotedPaths_text (spec : Spec) (rest : List Char) (before : Option Char) :
    quotedPaths before (spec.text ++ rest) = spec.path :: quotedPaths none rest := by
  have hfront : '"' ∉ spec.front := fun h => spec.ne_of_mem_front h (by decide) (by decide) rfl
  rw [spec.text_append, quotedPaths_append hfront]
  exact findAll_of_eq_some (pathLiteral?_path spec rest) (List.cons_ne_nil _ _)

private theorem quote_notMem_blanks (blanks : Blanks) : '"' ∉ blanks.val := fun h =>
  absurd (blanks.property _ h) (by decide)

private theorem quote_notMem_separators (separators : Separators) : '"' ∉ separators.val := fun h =>
  absurd (separators.property _ h) (by decide)

private theorem quotedPaths_row (row : Row) :
    quotedPaths none row.text = row.specs.map Spec.path := by
  have hentries (entries : List (Spec × Separators)) (before : Option Char) :
      quotedPaths before (entries.flatMap fun entry => entry.1.text ++ entry.2.val) =
        (entries.map Prod.fst).map Spec.path := by
    induction entries generalizing before with
    | nil =>
      rw [List.flatMap_nil, quotedPaths, findAll]
      rfl
    | cons entry entries ih =>
      rw [List.flatMap_cons, List.append_assoc, quotedPaths_text,
        quotedPaths_append (quote_notMem_separators entry.2), ih]
      rfl
  rw [Row.text, quotedPaths_append (quote_notMem_blanks row.indent), hentries, Row.specs]

private theorem Row.ne_of_mem_text {row : Row} {c : Char} (h : c ∈ row.text) : c ≠ ')' := by
  rcases List.mem_append.mp h with h | h
  · exact ne_of_apply_ne isBlank (by rw [row.indent.property c h]; decide)
  · obtain ⟨entry, -, h⟩ := List.mem_flatMap.mp h
    rcases List.mem_append.mp h with h | h
    · exact entry.1.ne_of_mem_text h
    · exact ne_of_isSeparator (entry.2.property c h) (by decide)

private theorem skipBlanks_opening (indent afterKeyword : Blanks) (rest : List Char) :
    skipBlanks (opening indent afterKeyword ++ rest) =
      "import".toList ++ (afterKeyword.val ++ rest) := by
  rw [opening, List.append_assoc, List.append_assoc]
  exact skipBlanks_append indent (c := 'i') (by decide) _

private theorem blockStart?_opening (indent afterKeyword : Blanks) (s : List Char) :
    blockStart? (opening indent afterKeyword ++ '(' :: s) = some s := by
  rw [blockStart?, skipBlanks_opening, stripStart?_eq_some_iff.mpr rfl, Option.bind_some,
    skipBlanks_append afterKeyword (by decide)]
  exact stripStart?_eq_some_iff.mpr rfl

/-- On the line of the opening parenthesis every spec is found, and the block stays open unless the
closing one stands there too. -/
theorem readLine_opening (indent afterKeyword : Blanks) (row : Row) {closing : List Char}
    (hclosing : ∀ c ∈ closing.head?, c = ')') :
    readLine false (opening indent afterKeyword ++ ['('] ++ (row.text ++ closing)) =
      (closing.isEmpty, row.specs.map fun spec => (spec.path, .imports)) := by
  have hinside : (row.text ++ closing).takeWhile (· != ')') = row.text := by
    apply takeWhile_append_of_head?
    · exact fun c hc => by simpa using Row.ne_of_mem_text hc
    · exact fun c hc => by simpa using hclosing c hc
  have hclosed : (!(row.text ++ closing).contains ')') = closing.isEmpty := by
    have hrow : ')' ∉ row.text := fun h => Row.ne_of_mem_text h rfl
    cases closing with
    | nil => simpa using hrow
    | cons c closing => simp [hclosing c rfl]
  rw [readLine, if_neg Bool.false_ne_true, readDeclaration, List.append_assoc,
    List.singleton_append, blockStart?_opening]
  dsimp only
  rw [hinside, hclosed, ← quotedPaths, quotedPaths_row, List.map_map]
  rfl

theorem Row.text_cons {indent : Blanks} {spec : Spec} {separators : Separators}
    {entries : List (Spec × Separators)} :
    Row.text ⟨indent, (spec, separators) :: entries⟩ = indent.val ++ (spec.text ++
      (separators.val ++ entries.flatMap fun entry => entry.1.text ++ entry.2.val)) := by
  rw [Row.text, List.flatMap_cons, List.append_assoc]

/-- On a further line of a block the spec at the start is found, and the block is closed only by a
parenthesis at the start. -/
theorem readLine_row {row : Row} (hne : row.specs ≠ []) (rest : List Char) :
    readLine true (row.text ++ rest) = (true, row.found.map fun spec => (spec.path, .imports)) := by
  obtain ⟨indent, entries⟩ := row
  cases entries with
  | nil => exact absurd rfl hne
  | cons entry entries =>
    obtain ⟨spec, separators⟩ := entry
    obtain ⟨c, s, htext, -, -, hc⟩ := spec.text_eq_cons
    rw [Row.text_cons, List.append_assoc, List.append_assoc, readLine, if_pos rfl]
    dsimp only
    rw [spec.skipBlanks_append_text, spec?_text]
    have hopen : (spec.text ++ (separators.val ++
        (entries.flatMap fun entry => entry.1.text ++ entry.2.val) ++ rest)).head? ≠ some ')' := by
      rw [htext]
      simpa using hc
    rw [if_neg hopen]
    change (true, List.map _ (if spec.isSpaced then some spec.path else none).toList) =
      (true, ((some spec).filter Spec.isSpaced).toList.map _)
    cases hspaced : spec.isSpaced <;> simp [Option.filter, hspaced]

theorem readLine_close (indent : Blanks) (rest : List Char) :
    readLine true (indent.val ++ ')' :: rest) = (false, []) := by
  rw [readLine, if_pos rfl, skipBlanks_append indent (by decide)]
  rfl

private theorem stripStart?_paren {c : Char} (hc : c ≠ '(') {s : List Char} :
    stripStart? ['('] (c :: s) = none := by
  rw [Option.eq_none_iff_forall_ne_some]
  intro rest hrest
  exact hc (List.cons.inj (stripStart?_eq_some_iff.mp hrest)).1

/-- A single import is read if there are blanks behind the keyword and the name. -/
theorem readLine_single (indent afterKeyword : Blanks) (spec : Spec) (rest : List Char) :
    readLine false (opening indent afterKeyword ++ (spec.text ++ rest)) =
      (false, if !afterKeyword.val.isEmpty && spec.isSpaced then [(spec.path, .imports)]
        else []) := by
  obtain ⟨c, s, htext, hblank, hparen, -⟩ := spec.text_eq_cons
  have hkeyword : blanks? (afterKeyword.val ++ (spec.text ++ rest)) =
      if afterKeyword.val.isEmpty then none else some (spec.text ++ rest) := by
    rw [htext]
    exact blanks?_append afterKeyword hblank (s ++ rest)
  have hnoBlock : blockStart? (opening indent afterKeyword ++ (spec.text ++ rest)) =
      none := by
    rw [blockStart?, skipBlanks_opening, stripStart?_eq_some_iff.mpr rfl, Option.bind_some,
      spec.skipBlanks_append_text, htext]
    exact stripStart?_paren hparen
  rw [readLine, if_neg Bool.false_ne_true, readDeclaration, hnoBlock]
  dsimp only
  rw [skipBlanks_opening, keyword?, stripStart?_eq_some_iff.mpr rfl, Option.bind_some, hkeyword]
  cases afterKeyword.val.isEmpty with
  | true => rfl
  | false =>
    rw [if_neg Bool.false_ne_true, Option.bind_some, spec?_text]
    cases spec.isSpaced <;> rfl

theorem readLine_other (line : OtherLine) : readLine false line.text = (false, []) := by
  cases hstrip : stripStart? "import".toList (skipBlanks line.text) with
  | none =>
    rw [readLine, if_neg Bool.false_ne_true, readDeclaration, blockStart?, keyword?, hstrip]
    rfl
  | some rest =>
    have hword := line.isWordChar_head rest (stripStart?_eq_some_iff.mp hstrip)
    cases rest with
    | nil => cases hword
    | cons c rest =>
      change isWordChar c = true at hword
      have hname : isNameChar c = true := by rw [isNameChar, hword, Bool.true_or]
      have hblank := isBlank_of_isNameChar hname
      have hparen : stripStart? ['('] (skipBlanks (c :: rest)) = none := by
        rw [skipBlanks, List.dropWhile_cons_of_neg (by simp [hblank])]
        exact stripStart?_paren (ne_of_isNameChar hname (by decide))
      have hblanks : blanks? (c :: rest) = none := by
        rw [blanks?, hblank, if_neg Bool.false_ne_true]
      rw [readLine, if_neg Bool.false_ne_true, readDeclaration, blockStart?, keyword?, hstrip,
        Option.bind_some, Option.bind_some, hparen, hblanks]
      rfl

/-- A text that opens no comment, whichever such texts stand around it. -/
structure Inert (s : List Char) : Prop where
  isChain : s.IsChain CommentState.OpensNone
  head?_ne : s.head? ≠ some '/'
  getLast?_ne : s.getLast? ≠ some '/'

namespace Inert

theorem of_notMem {s : List Char} (h : '/' ∉ s) : Inert s where
  isChain := CommentState.isChain_of_notMem h
  head?_ne hhead := h (List.mem_of_head? hhead)
  getLast?_ne hlast := h (List.mem_of_getLast? hlast)

theorem append {s t : List Char} (hs : Inert s) (ht : Inert t) : Inert (s ++ t) where
  isChain := by
    refine List.isChain_append.mpr ⟨hs.isChain, ht.isChain, ?_⟩
    intro a ha b hb
    have hslash : a ≠ '/' := fun h => hs.getLast?_ne (h ▸ ha)
    exact ⟨fun h => hslash h.1, fun h => absurd (h ▸ hb) ht.head?_ne⟩
  head?_ne := by
    rw [List.head?_append]
    cases hhead : s.head? with
    | none => exact ht.head?_ne
    | some c =>
      rw [Option.some_or, ← hhead]
      exact hs.head?_ne
  getLast?_ne := by
    rw [List.getLast?_append]
    cases hlast : t.getLast? with
    | none => exact hs.getLast?_ne
    | some c =>
      rw [Option.some_or, ← hlast]
      exact ht.getLast?_ne

end Inert

private theorem inert_blanks (blanks : Blanks) : Inert blanks.val :=
  Inert.of_notMem fun h => absurd (blanks.property _ h) (by decide)

theorem inert_separators (separators : Separators) : Inert separators.val :=
  Inert.of_notMem fun h => absurd (separators.property _ h) (by decide)

theorem Spec.inert_text (spec : Spec) : Inert spec.text := by
  have hfront : Inert spec.front :=
    Inert.of_notMem fun h => spec.ne_of_mem_front h (by decide) (by decide) rfl
  have hpath : spec.path.IsChain CommentState.OpensNone :=
    CommentState.isChain_of_not_isInfix
      (fun c hc => ⟨(spec.of_mem_path hc).2.2.2, (spec.of_mem_path hc).2.2.1⟩) spec.not_isInfix_path
  have hquoted : Inert ('"' :: (spec.path ++ ['"'])) := by
    have hend : (spec.path ++ ['"']).IsChain CommentState.OpensNone := by
      refine List.isChain_append.mpr ⟨hpath, List.isChain_singleton _, ?_⟩
      rintro a - _ ⟨⟩
      exact ⟨fun h => absurd h.2 (by decide), fun h => absurd h (by decide)⟩
    refine ⟨List.isChain_cons.mpr ⟨fun c _ => ?_, hend⟩, by simp, by simp [List.getLast?_cons]⟩
    exact ⟨fun h => absurd h.1 (by decide), fun _ => by decide⟩
  exact hfront.append hquoted

theorem Row.inert_text (row : Row) : Inert row.text := by
  obtain ⟨indent, entries⟩ := row
  apply (inert_blanks indent).append
  induction entries with
  | nil => exact Inert.of_notMem List.not_mem_nil
  | cons entry entries ih =>
    rw [List.flatMap_cons]
    exact (entry.1.inert_text.append (inert_separators entry.2)).append ih

theorem inert_opening (indent afterKeyword : Blanks) :
    Inert (opening indent afterKeyword) :=
  (inert_blanks indent).append
    ((Inert.of_notMem (by decide)).append (inert_blanks afterKeyword))

theorem inert_closing (ending : Separators) : Inert (')' :: ending.val) :=
  (Inert.of_notMem (s := [')']) (by decide)).append (inert_separators ending)

theorem readLine_of_inert {line : List Char} (hline : Inert line) (opened : Bool) :
    Detector.go.readLine ⟨.code, opened⟩ line =
      if allBlank line then (⟨.code, opened⟩, [])
      else (⟨.code, (readLine opened line).1⟩, (readLine opened line).2) := by
  have hread : CommentState.readLine Detector.go.commentStyle .code line = (.code, line) :=
    CommentState.readSlash_of_isChain hline.head?_ne hline.isChain
  exact Detector.readLine_of_allCode hread opened

theorem readLine_of_mem {opened : Bool} {line : List Char} {c : Char} (hline : Inert line)
    (hmem : c ∈ line) (hc : isBlank c = false) :
    Detector.go.readLine ⟨.code, opened⟩ line =
      (⟨.code, (readLine opened line).1⟩, (readLine opened line).2) := by
  rw [readLine_of_inert hline, allBlank_eq_false hmem hc, if_neg Bool.false_ne_true]

end Import.Go

end RepoGraph
