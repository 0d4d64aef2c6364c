import RepoGraph.Proofs.Import.FromClause
import RepoGraph.Proofs.Source.LineComment

/-!
# Import lists over several lines

An import or export with a list in braces may be broken into lines inside the braces. However it is
broken, the scan finds its module once, on the line of the `from` clause, and has nothing open after
it: the first line opens the list, every further line without a module keeps it open, and the line
of the `from` clause closes it.
-/

namespace RepoGraph

open Text

namespace Import.JavaScript

/-- Whether a character can stand in a name: an ASCII letter or digit, an underscore or a dollar
sign. -/
def isNameChar (c : Char) : Bool := isAsciiLetter c || isAsciiDigit c || c == '_' || c == '$'

structure Name where
  text : List Char
  ne_nil : text ≠ []
  isNameChar_of_mem : ∀ c ∈ text, isNameChar c = true

structure ListedName where
  name : Name
  renamed : Option Name := none

def ListedName.text (listed : ListedName) : List Char :=
  listed.name.text ++ listed.renamed.elim [] fun name => " as ".toList ++ name.text

inductive Opening where
  | imports (ofTypes : Bool) (default : Option Name)
  | exports (ofTypes : Bool)

def defaultText (default : Option Name) : List Char :=
  default.elim [] fun name => name.text ++ ", ".toList

namespace Opening

def keyword : Opening → List Char
  | imports _ _ => "import".toList
  | exports _ => "export".toList

def inner : Opening → List Char
  | imports ofTypes default => (if ofTypes then "type ".toList else []) ++ defaultText default
  | exports ofTypes => if ofTypes then "type ".toList else []

def text (opening : Opening) : List Char := opening.keyword ++ ' ' :: opening.inner

end Opening

/-- Whether a character can stand in the name of a module: no quote, blank or semicolon. -/
def isModuleChar (c : Char) : Bool := !(isQuote c || isBlank c || c == ';')

/-- An import or export of a list of names. -/
structure Statement where
  opening : Opening
  names : List ListedName
  quote : Char
  isQuote_quote : isQuote quote = true
  module : List Char
  isModuleChar_of_mem : ∀ c ∈ module, isModuleChar c = true
  /-- The module opens no block comment. -/
  not_isInfix_module : ¬ ['/', '*'] <:+: module

abbrev Gap := { s : List Char // ∀ c ∈ s, isBlank c = true }

/-- How a statement is written: the gaps inside its braces, and whether a comma and a semicolon
stand at the ends of the list and of the statement. -/
structure Layout where
  afterBrace : Gap
  afterComma : Nat → Gap
  lastComma : Bool
  beforeBrace : Gap
  semicolon : Bool

def joined (gaps : Nat → Gap) : List ListedName → List Char
  | [] => []
  | [listed] => listed.text
  | listed :: names =>
    listed.text ++ ',' :: ((gaps 0).val ++ joined (fun i => gaps (i + 1)) names)

namespace Statement

variable (statement : Statement) (layout : Layout)

def list : List Char :=
  layout.afterBrace.val ++ (joined layout.afterComma statement.names ++
    ((if layout.lastComma then [','] else []) ++ layout.beforeBrace.val))

def upToClause : List Char :=
  statement.opening.text ++ '\x7b' :: (statement.list layout ++ ['\x7d', ' '])

def clause : List Char :=
  "from ".toList ++ statement.quote :: (statement.module ++
    statement.quote :: if layout.semicolon then [';'] else [])

def text : List Char := statement.upToClause layout ++ statement.clause layout

def clauseLine : Nat := (statement.upToClause layout).count '\n' + 1

end Statement

def isListed (c : Char) : Bool := isNameChar c || isBlank c || c == ','

def isPlain (c : Char) : Bool := isListed c || c == '\x7b' || c == '\x7d'

private theorem toNat_of_isNameChar {c : Char} (h : isNameChar c = true) :
    36 ≤ c.toNat ∧ c.toNat < 128 := by
  simp only [isNameChar, isAsciiLetter, isAsciiDigit, Bool.or_eq_true, Bool.and_eq_true,
    decide_eq_true_eq, beq_iff_eq, Char.le_def, UInt32.le_iff_toNat_le] at h
  rcases h with (((⟨hlo, hhi⟩ | ⟨hlo, hhi⟩) | ⟨hlo, hhi⟩) | rfl) | rfl
  · change 97 ≤ c.toNat at hlo
    change c.toNat ≤ 122 at hhi
    omega
  · change 65 ≤ c.toNat at hlo
    change c.toNat ≤ 90 at hhi
    omega
  · change 48 ≤ c.toNat at hlo
    change c.toNat ≤ 57 at hhi
    omega
  · decide
  · decide

theorem isBlank_of_isNameChar {c : Char} (h : isNameChar c = true) : isBlank c = false := by
  obtain ⟨hlo, hhi⟩ := toNat_of_isNameChar h
  simp only [isBlank, Bool.or_eq_false_iff, Bool.and_eq_false_iff, decide_eq_false_iff_not,
    beq_eq_false_iff_ne]
  omega

private theorem runsOn_of_isNameChar {c : Char} (h : isNameChar c = true) :
    (isWordChar c || c == '$') = true := by
  rw [isWordChar, if_pos (toNat_of_isNameChar h).2]
  exact h

private theorem isListed_of_isNameChar {c : Char} (h : isNameChar c = true) :
    isListed c = true := by
  rw [isListed, h, Bool.true_or, Bool.true_or]

private theorem isListed_of_isBlank {c : Char} (h : isBlank c = true) : isListed c = true := by
  rw [isListed, h, Bool.or_true, Bool.true_or]

private theorem isPlain_of_isListed {c : Char} (h : isListed c = true) : isPlain c = true := by
  rw [isPlain, h, Bool.true_or, Bool.true_or]

private theorem isQuote_of_isPlain {c : Char} (h : isPlain c = true) : isQuote c = false := by
  rw [isQuote, Bool.or_eq_false_iff, beq_eq_false_iff_ne, beq_eq_false_iff_ne]
  exact ⟨ne_of_apply_ne isPlain (by rw [h]; decide), ne_of_apply_ne isPlain (by rw [h]; decide)⟩

private theorem countP_isQuote_of_isPlain {s : List Char} (h : ∀ c ∈ s, isPlain c = true) :
    s.countP isQuote = 0 := by
  rw [List.countP_eq_zero]
  intro c hc
  rw [isQuote_of_isPlain (h c hc)]
  exact Bool.false_ne_true

private theorem notMem_of_isPlain {s : List Char} (h : ∀ c ∈ s, isPlain c = true) {d : Char}
    (hd : isPlain d = false) : d ∉ s := by
  intro hmem
  rw [h d hmem] at hd
  cases hd

private theorem ListedName.isListed_of_mem_text {listed : ListedName} {c : Char}
    (h : c ∈ listed.text) :
    isListed c = true := by
  rcases List.mem_append.mp h with h | h
  · exact isListed_of_isNameChar (listed.name.isNameChar_of_mem c h)
  · cases hrenamed : listed.renamed with
    | none =>
      rw [hrenamed] at h
      cases h
    | some name =>
      have has : ∀ d ∈ " as ".toList, isListed d = true := List.all_eq_true.mp (by decide)
      rw [hrenamed] at h
      rcases List.mem_append.mp h with h | h
      · exact has c h
      · exact isListed_of_isNameChar (name.isNameChar_of_mem c h)

private theorem isListed_of_mem_joined {gaps : Nat → Gap} {names : List ListedName} {c : Char}
    (h : c ∈ joined gaps names) : isListed c = true := by
  fun_induction joined gaps names with
  | case1 => cases h
  | case2 gaps listed => exact ListedName.isListed_of_mem_text h
  | case3 gaps listed names hne ih =>
    rcases List.mem_append.mp h with h | h
    · exact ListedName.isListed_of_mem_text h
    · rcases List.mem_cons.mp h with rfl | h
      · decide
      · rcases List.mem_append.mp h with h | h
        · exact isListed_of_isBlank ((gaps 0).property c h)
        · exact ih h

private theorem Opening.of_mem_text {opening : Opening} {c : Char} (h : c ∈ opening.text) :
    (isNameChar c || c == ' ' || c == ',') = true := by
  have hname {d : Char} (hd : isNameChar d = true) : (isNameChar d || d == ' ' || d == ',') = true := by
    rw [hd, Bool.true_or, Bool.true_or]
  have htype : ∀ ofTypes : Bool, ∀ d ∈ (if ofTypes then "type ".toList else []),
      (isNameChar d || d == ' ' || d == ',') = true := by
    intro ofTypes
    cases ofTypes <;> exact List.all_eq_true.mp (by decide)
  have hkeyword : ∀ d ∈ opening.keyword, isNameChar d = true := by
    cases opening <;> exact List.all_eq_true.mp rfl
  rcases List.mem_append.mp h with h | h
  · exact hname (hkeyword c h)
  · rcases List.mem_cons.mp h with rfl | h
    · decide
    · cases opening with
      | exports ofTypes => exact htype ofTypes c h
      | imports ofTypes default =>
        rcases List.mem_append.mp h with h | h
        · exact htype ofTypes c h
        · cases default with
          | none => cases h
          | some name =>
            have hcomma : ∀ d ∈ ", ".toList, (isNameChar d || d == ' ' || d == ',') = true :=
              List.all_eq_true.mp (by decide)
            rcases List.mem_append.mp h with h | h
            · exact hname (name.isNameChar_of_mem c h)
            · exact hcomma c h

private theorem Opening.isListed_of_mem_text {opening : Opening} {c : Char} (h : c ∈ opening.text) :
    isListed c = true := by
  have hchar := opening.of_mem_text h
  rw [Bool.or_eq_true, Bool.or_eq_true, beq_iff_eq, beq_iff_eq] at hchar
  rcases hchar with (hname | rfl) | rfl
  · exact isListed_of_isNameChar hname
  · decide
  · decide

private theorem Opening.newline_notMem_text (opening : Opening) : '\n' ∉ opening.text := by
  intro h
  exact absurd (opening.of_mem_text h) (by decide)

namespace Statement

variable {statement : Statement} {layout : Layout}

private theorem isListed_of_mem_list {c : Char} (h : c ∈ statement.list layout) :
    isListed c = true := by
  rcases List.mem_append.mp h with h | h
  · exact isListed_of_isBlank (layout.afterBrace.property c h)
  · rcases List.mem_append.mp h with h | h
    · exact isListed_of_mem_joined h
    · rcases List.mem_append.mp h with h | h
      · cases hcomma : layout.lastComma
        · rw [hcomma] at h
          cases h
        · rw [hcomma] at h
          obtain rfl := List.mem_singleton.mp h
          decide
      · exact isListed_of_isBlank (layout.beforeBrace.property c h)

private theorem isPlain_of_mem_upToClause {c : Char} (h : c ∈ statement.upToClause layout) :
    isPlain c = true := by
  have hend : ∀ d ∈ ['\x7d', ' '], isPlain d = true := List.all_eq_true.mp (by decide)
  rcases List.mem_append.mp h with h | h
  · exact isPlain_of_isListed (Opening.isListed_of_mem_text h)
  · rcases List.mem_cons.mp h with rfl | h
    · decide
    · rcases List.mem_append.mp h with h | h
      · exact isPlain_of_isListed (isListed_of_mem_list h)
      · exact hend c h

private theorem of_mem_module (statement : Statement) {c : Char} (h : c ∈ statement.module) :
    isQuote c = false ∧ isBlank c = false ∧ c ≠ ';' := by
  have hchar := statement.isModuleChar_of_mem c h
  rwa [isModuleChar, Bool.not_eq_true', Bool.or_eq_false_iff, Bool.or_eq_false_iff,
    beq_eq_false_iff_ne, and_assoc] at hchar

private theorem isQuote_of_mem_module (statement : Statement) :
    ∀ c ∈ statement.module, isQuote c = false :=
  fun _ hc => (statement.of_mem_module hc).1

private theorem quote_ne (statement : Statement) {c : Char} (h : isQuote c = false) :
    statement.quote ≠ c :=
  ne_of_apply_ne isQuote (by rw [statement.isQuote_quote, h]; decide)

private theorem newline_notMem_clause : '\n' ∉ statement.clause layout := by
  intro h
  rcases List.mem_append.mp h with h | h
  · exact absurd h (by decide)
  · rcases List.mem_cons.mp h with h | h
    · exact statement.quote_ne (by decide) h.symm
    · rcases List.mem_append.mp h with h | h
      · exact absurd (statement.of_mem_module h).2.1 (by decide)
      · rcases List.mem_cons.mp h with h | h
        · exact statement.quote_ne (by decide) h.symm
        · split at h
          · exact absurd h (by decide)
          · cases h

end Statement

private theorem readLine_of_isChain {line : List Char} (hhead : line.head? ≠ some '/')
    (hchain : line.IsChain CommentState.OpensNone) (opened : Bool) :
    Detector.javaScript.readLine ⟨.code, opened⟩ line =
      if allBlank line then (⟨.code, opened⟩, [])
      else (⟨.code, (readLine opened line).1⟩, (readLine opened line).2) := by
  have hread : CommentState.readLine Detector.javaScript.commentStyle .code line = (.code, line) :=
    CommentState.readSlash_of_isChain hhead hchain
  exact Detector.readLine_of_allCode hread opened

section Plain

variable {line : List Char} (hline : ∀ c ∈ line, isPlain c = true)
include hline

private theorem readStatement_of_isPlain (opened : Bool) :
    readStatement opened line = (opened || opensStatement line, []) := by
  have hquotes : line.countP isQuote ≤ 1 :=
    (countP_isQuote_of_isPlain hline).trans_le (Nat.zero_le 1)
  have hcalls : ∀ function, calls function line = [] := by
    intro function
    apply calls_eq_nil
    intro t ht
    exact (((List.suffix_cons '(' t).trans ht).sublist.countP_le).trans hquotes
  rw [readStatement, hcalls, hcalls, statement?_eq_none hquotes]
  rfl

private theorem readLine_of_isPlain :
    Detector.javaScript.readLine ⟨.code, true⟩ line = (⟨.code, true⟩, []) := by
  have hslash : '/' ∉ line := notMem_of_isPlain hline (by decide)
  have hhead : line.head? ≠ some '/' := fun h => hslash (List.mem_of_head? h)
  have hsemicolon : line.contains ';' = false := by
    simpa using notMem_of_isPlain hline (d := ';') (by decide)
  have hquotes : line.countP isQuote ≤ 1 :=
    (countP_isQuote_of_isPlain hline).trans_le (Nat.zero_le 1)
  have hcode : readLine true line = (true, []) := by
    rw [readLine, if_pos rfl, fromClause?_eq_none hquotes, hsemicolon,
      readStatement_of_isPlain hline]
    rfl
  rw [readLine_of_isChain hhead (CommentState.isChain_of_notMem hslash), hcode, ite_self]

end Plain

private theorem opensList_append (default : Option Name) {first : List Char}
    (hfirst : '\x7d' ∉ first) :
    opensList (defaultText default ++ '\x7b' :: first) = true := by
  have hopens : opensBraces ('\x7b' :: first) = true := by simpa [opensBraces] using hfirst
  cases default with
  | none =>
    change (opensBraces ('\x7b' :: first) || _) = true
    rw [hopens, Bool.true_or]
  | some name =>
    have hname : ∀ c ∈ name.text, (isWordChar c || c == '$') = true := fun c hc =>
      runsOn_of_isNameChar (name.isNameChar_of_mem c hc)
    have hdefault : defaultName? (name.text ++ ',' :: ' ' :: '\x7b' :: first) =
        some ('\x7b' :: first) := by
      unfold defaultName?
      dsimp only
      rw [List.takeWhile_append_of_pos hname, List.dropWhile_append_of_pos hname,
        List.takeWhile_cons_of_neg (by decide), List.dropWhile_cons_of_neg (by decide),
        List.append_nil]
      obtain ⟨c, text, htext⟩ := List.exists_cons_of_ne_nil name.ne_nil
      rw [htext]
      rfl
    have happend : defaultText (some name) ++ '\x7b' :: first =
        name.text ++ ',' :: ' ' :: '\x7b' :: first := List.append_assoc _ _ _
    rw [happend, opensList, hdefault, Option.any_some, hopens, Bool.or_true]

private theorem skipBlanks_defaultText (default : Option Name) (first : List Char) :
    skipBlanks (defaultText default ++ '\x7b' :: first) = defaultText default ++ '\x7b' :: first := by
  cases default with
  | none => rfl
  | some name =>
    obtain ⟨c, text, htext⟩ := List.exists_cons_of_ne_nil name.ne_nil
    have hc : isBlank c = false := by
      apply isBlank_of_isNameChar
      apply name.isNameChar_of_mem
      rw [htext]
      exact List.mem_cons_self
    rw [defaultText, Option.elim_some, htext]
    exact List.dropWhile_cons_of_neg (by simp [hc])

private theorem opensStatement_text (opening : Opening) {first : List Char}
    (hfirst : '\x7d' ∉ first) :
    opensStatement (opening.text ++ '\x7b' :: first) = true := by
  have hlist : ∀ default, opensList (skipBlanks (defaultText default ++ '\x7b' :: first)) = true := by
    intro default
    rw [skipBlanks_defaultText]
    exact opensList_append default hfirst
  have htype : ∀ default, (keyword? "type".toList
      ("type ".toList ++ (defaultText default ++ '\x7b' :: first))).any opensList = true := hlist
  have hkeyword : opensStatement (opening.text ++ '\x7b' :: first) =
      (opensList (skipBlanks (opening.inner ++ '\x7b' :: first)) ||
        (keyword? "type".toList (skipBlanks (opening.inner ++ '\x7b' :: first))).any opensList) := by
    cases opening <;> rfl
  rw [hkeyword, Bool.or_eq_true]
  cases opening with
  | imports ofTypes default =>
    cases ofTypes with
    | false => exact Or.inl (hlist default)
    | true =>
      rw [Opening.inner, if_pos rfl, List.append_assoc]
      exact Or.inr (htype default)
  | exports ofTypes =>
    cases ofTypes with
    | false => exact Or.inl (hlist none)
    | true => exact Or.inr (htype none)

theorem readLine_opening (opening : Opening) {first : List Char}
    (hfirst : ∀ c ∈ first, isListed c = true) :
    Detector.javaScript.readLine .clear (opening.text ++ '\x7b' :: first) =
      (⟨.code, true⟩, []) := by
  have hplain : ∀ c ∈ opening.text ++ '\x7b' :: first, isPlain c = true := by
    intro c hc
    rcases List.mem_append.mp hc with hc | hc
    · exact isPlain_of_isListed (Opening.isListed_of_mem_text hc)
    · rcases List.mem_cons.mp hc with rfl | hc
      · decide
      · exact isPlain_of_isListed (hfirst c hc)
  have hslash := notMem_of_isPlain hplain (d := '/') (by decide)
  have hhead : (opening.text ++ '\x7b' :: first).head? ≠ some '/' := fun h =>
    hslash (List.mem_of_head? h)
  have hclose : '\x7d' ∉ first := fun h => absurd (hfirst _ h) (by decide)
  have hcode : allBlank (opening.text ++ '\x7b' :: first) = false := by
    cases opening <;> rfl
  rw [ScanState.clear, readLine_of_isChain hhead (CommentState.isChain_of_notMem hslash), hcode,
    if_neg Bool.false_ne_true, readLine, if_neg Bool.false_ne_true,
    readStatement_of_isPlain hplain, opensStatement_text opening hclose]
  rfl

private theorem opensNone_of_isQuote {q : Char} (h : isQuote q = true) (c : Char) :
    CommentState.OpensNone q c ∧ CommentState.OpensNone c q := by
  rw [isQuote, Bool.or_eq_true, beq_iff_eq, beq_iff_eq] at h
  rcases h with rfl | rfl <;>
    exact ⟨⟨fun h => absurd h.1 (by decide), fun _ => by decide⟩,
      fun h => absurd h.2 (by decide), fun h => absurd h (by decide)⟩

namespace Statement

variable {statement : Statement} {layout : Layout}

private theorem isChain_module (statement : Statement) :
    statement.module.IsChain CommentState.OpensNone :=
  CommentState.isChain_of_not_isInfix (fun _ hc => (statement.of_mem_module hc).2)
    statement.not_isInfix_module

private theorem append_clause (front : List Char) :
    front ++ statement.clause layout = front ++ "from ".toList ++ statement.quote ::
      (statement.module ++ statement.quote :: if layout.semicolon then [';'] else []) :=
  (List.append_assoc _ _ _).symm

section Front

variable {front : List Char} (hfront : ∀ c ∈ front, isPlain c = true)
include hfront

private theorem isChain_append_clause :
    (front ++ statement.clause layout).IsChain CommentState.OpensNone := by
  have hquote := opensNone_of_isQuote statement.isQuote_quote
  have hslash : '/' ≠ statement.quote := (statement.quote_ne (by decide)).symm
  have hbefore : '/' ∉ front ++ "from ".toList ++ [statement.quote] := by
    simp [notMem_of_isPlain hfront (d := '/') (by decide), hslash]
  have hmodule : (statement.module ++ [statement.quote]).IsChain CommentState.OpensNone :=
    List.isChain_append.mpr ⟨isChain_module statement, List.isChain_singleton _,
      fun x _ y hy => Option.some.inj hy ▸ (hquote x).2⟩
  have hafter : '/' ∉ statement.quote :: if layout.semicolon then [';'] else [] := by
    cases layout.semicolon <;> simp [hslash]
  rw [append_clause, List.isChain_split, List.isChain_cons_split]
  exact ⟨CommentState.isChain_of_notMem hbefore,
    List.isChain_cons.mpr ⟨fun y _ => (hquote y).1, hmodule⟩,
    CommentState.isChain_of_notMem hafter⟩

private theorem calls_append_clause (function : List Char) :
    calls function (front ++ statement.clause layout) = [] := by
  apply calls_eq_nil
  intro t ht
  have hparen : '(' ∉ front ++ "from ".toList ++ [statement.quote] := by
    have hquote : '(' ≠ statement.quote := (statement.quote_ne (by decide)).symm
    simp [notMem_of_isPlain hfront (d := '(') (by decide), hquote]
  have hmodule : statement.module.countP isQuote = 0 := by
    rw [List.countP_eq_zero]
    intro c hc
    rw [statement.isQuote_of_mem_module c hc]
    exact Bool.false_ne_true
  have hend : (if layout.semicolon then [';'] else []).countP isQuote = 0 := by
    cases layout.semicolon <;> rfl
  rw [append_clause, List.append_cons] at ht
  have hle := ((List.suffix_cons '(' t).trans (suffix_of_notMem hparen ht)).sublist.countP_le
    (p := isQuote)
  rwa [List.countP_append, hmodule, List.countP_cons_of_pos statement.isQuote_quote, hend] at hle

variable (hlast : front.getLast? = some ' ')
include hlast

private theorem readLine_append_clause (opened : Bool) :
    Detector.javaScript.readLine ⟨.code, opened⟩ (front ++ statement.clause layout) =
      (⟨.code, (readLine opened (front ++ statement.clause layout)).1⟩,
        (readLine opened (front ++ statement.clause layout)).2) := by
  have hne : front ≠ [] := by
    rintro rfl
    cases hlast
  have hhead : (front ++ statement.clause layout).head? ≠ some '/' := by
    rw [List.head?_append_of_ne_nil _ hne]
    exact fun h => notMem_of_isPlain hfront (by decide) (List.mem_of_head? h)
  have hblank : "from ".toList.all isBlank = false := by decide
  have hcode : allBlank (front ++ statement.clause layout) = false := by
    rw [append_clause, allBlank, List.all_append, List.all_append, hblank, Bool.and_false,
      Bool.false_and]
  rw [readLine_of_isChain hhead (isChain_append_clause hfront), hcode, if_neg Bool.false_ne_true]

variable (hne : statement.module ≠ [])
include hne

/-- The line of the `from` clause names the module and closes the list. -/
theorem readLine_clause :
    Detector.javaScript.readLine ⟨.code, true⟩ (front ++ statement.clause layout) =
      (.clear, [(statement.module, .imports)]) := by
  have hmodule : fromClause? (front ++ statement.clause layout) = some statement.module :=
    fromClause?_eq (fun c hc => isQuote_of_isPlain (hfront c hc)) hlast statement.isQuote_quote hne
      statement.isQuote_of_mem_module _
  rw [readLine_append_clause hfront hlast, readLine, if_pos rfl, hmodule]
  rfl

end Front

def between (statement : Statement) (layout : Layout) : List Char :=
  statement.opening.inner ++ '\x7b' :: (statement.list layout ++ ['\x7d'])

private theorem upToClause_eq : statement.upToClause layout =
    statement.opening.keyword ++ ' ' :: statement.between layout ++ [' '] := by
  simp [upToClause, between, Opening.text]

private theorem getLast?_upToClause : (statement.upToClause layout).getLast? = some ' ' := by
  rw [upToClause_eq, List.getLast?_concat]

private theorem statement?_text (hne : statement.module ≠ []) :
    statement? (statement.text layout) = some statement.module := by
  have hkeyword : statement.opening.keyword = "import".toList ∨
      statement.opening.keyword = "export".toList := by
    cases statement.opening
    · exact Or.inl rfl
    · exact Or.inr rfl
  have hbetween : ∀ c ∈ statement.between layout, isQuote c = false ∧ c ≠ '\x60' := by
    intro c hc
    have hmem : c ∈ statement.upToClause layout := by
      rw [upToClause_eq]
      exact List.mem_append_left _ (List.mem_append_right _ (List.mem_cons_of_mem _ hc))
    have hplain := isPlain_of_mem_upToClause hmem
    exact ⟨isQuote_of_isPlain hplain, ne_of_apply_ne isPlain (by rw [hplain]; decide)⟩
  have htext : statement.text layout = statement.opening.keyword ++
      ((' ' :: statement.between layout ++ " from ".toList) ++ statement.quote ::
        (statement.module ++ statement.quote :: if layout.semicolon then [';'] else [])) := by
    have hfrom : " from ".toList = ' ' :: "from ".toList := rfl
    rw [text, append_clause, upToClause_eq, hfrom]
    simp
  rw [htext]
  exact statement?_eq hkeyword hbetween statement.isQuote_quote hne statement.isQuote_of_mem_module _

private theorem readLine_text (hne : statement.module ≠ []) :
    Detector.javaScript.readLine .clear (statement.text layout) =
      (.clear, [(statement.module, .imports)]) := by
  have hcalls : ∀ function, calls function (statement.text layout) = [] :=
    calls_append_clause fun c hc => isPlain_of_mem_upToClause hc
  have hcode : readLine false (statement.text layout) = (false, [(statement.module, .imports)]) := by
    rw [readLine, if_neg Bool.false_ne_true, readStatement, hcalls, hcalls, statement?_text hne]
    rfl
  rw [ScanState.clear, text, readLine_append_clause (fun c hc => isPlain_of_mem_upToClause hc)
    getLast?_upToClause, ← text, hcode]

/-- From a place inside the list on, one hit is found and nothing stays open. -/
theorem hitsFrom_list (layout : Layout) (hne : statement.module ≠ []) {rest : List Char}
    (hrest : ∀ c ∈ rest, isListed c = true) (count : Nat) :
    Detector.javaScript.stateAfter ⟨.code, true⟩
        (lines (rest ++ '\x7d' :: ' ' :: statement.clause layout)) = .clear ∧
      Detector.javaScript.hitsFrom ⟨.code, true⟩ count
        (lines (rest ++ '\x7d' :: ' ' :: statement.clause layout)) =
        [⟨count + rest.count '\n' + 1, String.ofList statement.module, .imports⟩] := by
  -- A line is read off the list as long as there is a line break left in it.
  by_cases hnewline : '\n' ∈ rest
  · obtain ⟨line, below, rfl, hline⟩ := List.eq_append_cons_of_mem hnewline
    have hplain : ∀ c ∈ cutReturn line, isPlain c = true := fun c hc =>
      isPlain_of_isListed (hrest c (List.mem_append_left _ ((cutReturn_isPrefix line).subset hc)))
    have hbelow : ∀ c ∈ below, isListed c = true := fun c hc =>
      hrest c (List.mem_append_right _ (List.mem_cons_of_mem _ hc))
    have hlt : below.length < (line ++ '\n' :: below).length := by
      simp only [List.length_append, List.length_cons]
      omega
    have hcount : (line ++ '\n' :: below).count '\n' = below.count '\n' + 1 := by
      rw [List.count_append, List.count_eq_zero.mpr hline, List.count_cons_self, Nat.zero_add]
    obtain ⟨hstate, hhits⟩ := hitsFrom_list layout hne hbelow (count + 1)
    rw [List.append_assoc, List.cons_append, lines_cons hline, Detector.hitsFrom,
      Detector.lineHits, readLine_of_isPlain hplain]
    constructor
    · rw [Detector.stateAfter_cons, readLine_of_isPlain hplain]
      exact hstate
    · rw [List.map_nil, List.nil_append, hhits, hcount]
      congr 2
      omega
  · have hfront : ∀ c ∈ rest ++ ['\x7d', ' '], isPlain c = true := by
      have hend : ∀ d ∈ ['\x7d', ' '], isPlain d = true := List.all_eq_true.mp (by decide)
      intro c hc
      exact (List.mem_append.mp hc).elim (fun hc => isPlain_of_isListed (hrest c hc)) (hend c)
    have happend : rest ++ '\x7d' :: ' ' :: statement.clause layout =
        rest ++ ['\x7d', ' '] ++ statement.clause layout := by simp
    have hlines : lines (rest ++ '\x7d' :: ' ' :: statement.clause layout) =
        [rest ++ ['\x7d', ' '] ++ statement.clause layout] := by
      rw [happend]
      apply lines_of_notMem
      · simp
      · simp [hnewline, newline_notMem_clause]
    have hread : Detector.javaScript.readLine ⟨.code, true⟩
        (rest ++ ['\x7d', ' '] ++ statement.clause layout) =
          (.clear, [(statement.module, .imports)]) := readLine_clause hfront (by simp) hne
    rw [hlines, Detector.hitsFrom, Detector.lineHits, hread, List.count_eq_zero.mpr hnewline]
    constructor
    · rw [Detector.stateAfter_cons, hread]
      rfl
    · rfl
termination_by rest.length

private theorem hitsFrom_text (layout : Layout) (hne : statement.module ≠ []) (count : Nat) :
    Detector.javaScript.stateAfter .clear (lines (statement.text layout)) = .clear ∧
      Detector.javaScript.hitsFrom .clear count (lines (statement.text layout)) =
        [⟨count + statement.clauseLine layout, String.ofList statement.module, .imports⟩] := by
  have hopening := List.count_eq_zero.mpr statement.opening.newline_notMem_text
  by_cases hnewline : '\n' ∈ statement.list layout
  · obtain ⟨first, rest, hlist, hfirst⟩ := List.eq_append_cons_of_mem hnewline
    have hlisted : ∀ c ∈ first ++ '\n' :: rest, isListed c = true := by
      rw [← hlist]
      exact fun c hc => isListed_of_mem_list hc
    have htext : statement.text layout = (statement.opening.text ++ '\x7b' :: first) ++
        '\n' :: (rest ++ '\x7d' :: ' ' :: statement.clause layout) := by
      simp [text, upToClause, hlist]
    have hline : '\n' ∉ statement.opening.text ++ '\x7b' :: first := by
      simp [statement.opening.newline_notMem_text, hfirst]
    have hcut : ∀ c ∈ cutReturn first, isListed c = true := fun c hc =>
      hlisted c (List.mem_append_left _ ((cutReturn_isPrefix first).subset hc))
    have hrest : ∀ c ∈ rest, isListed c = true := fun c hc =>
      hlisted c (List.mem_append_right _ (List.mem_cons_of_mem _ hc))
    have hread := readLine_opening statement.opening hcut
    have hclause : statement.clauseLine layout = 1 + rest.count '\n' + 1 := by
      simp [clauseLine, upToClause, hlist, hopening, List.count_eq_zero.mpr hfirst]
      omega
    obtain ⟨hstate, hhits⟩ := hitsFrom_list layout hne hrest (count + 1)
    rw [htext, lines_cons hline, cutReturn_append_cons _ _ _ (by decide), Detector.hitsFrom,
      Detector.lineHits, hread]
    constructor
    · rw [Detector.stateAfter_cons, hread]
      exact hstate
    · rw [List.map_nil, List.nil_append, hhits, hclause]
      congr 2
      omega
  · have hlines : lines (statement.text layout) = [statement.text layout] := by
      apply lines_of_notMem
      · simp [text, upToClause]
      · simp [text, upToClause, statement.opening.newline_notMem_text, hnewline,
          newline_notMem_clause]
    have hclause : statement.clauseLine layout = 1 := by
      simp [clauseLine, upToClause, hopening, List.count_eq_zero.mpr hnewline]
    rw [hlines, Detector.hitsFrom, Detector.lineHits, readLine_text hne, hclause]
    constructor
    · rw [Detector.stateAfter_cons, readLine_text hne]
      rfl
    · rfl

private theorem getLast?_text :
    ∃ c, (statement.text layout).getLast? = some c ∧ c ≠ '\n' ∧ c ≠ '\r' := by
  rw [text, append_clause, ← List.cons_append, List.getLast?_append, List.getLast?_append,
    List.getLast?_cons, Option.some_or, Option.some_or]
  cases layout.semicolon with
  | true => exact ⟨';', rfl, by decide, by decide⟩
  | false =>
    exact ⟨statement.quote, rfl, statement.quote_ne (by decide), statement.quote_ne (by decide)⟩

/-- A statement is one hit on the line of its `from` clause, whatever its layout, and the text
behind it reads as it does alone. -/
theorem scan_text (statement : Statement) (layout : Layout) (hne : statement.module ≠ [])
    {above : List Char} (habove : above = [] ∨ above.getLast? = some '\n')
    (hclear : (Detector.javaScript.read above).state = .clear) :
    Detector.javaScript.scan (String.ofList (above ++ statement.text layout)) =
        Detector.javaScript.scan (String.ofList above) ++
          [⟨(lines above).length + statement.clauseLine layout, String.ofList statement.module,
            .imports⟩] ∧
      (Detector.javaScript.read (above ++ statement.text layout)).state = .clear ∧
      ∀ below, Detector.javaScript.scan
          (String.ofList (above ++ (statement.text layout ++ '\n' :: below))) =
        Detector.javaScript.scan (String.ofList above) ++
          ⟨(lines above).length + statement.clauseLine layout, String.ofList statement.module,
            .imports⟩ :: (Detector.javaScript.scan (String.ofList below)).map
              (Hit.behind ((lines above).length + statement.clauseLine layout)) := by
  obtain ⟨hstate, hhits⟩ := hitsFrom_text layout hne (lines above).length
  obtain ⟨c, hlast, hnewline, hreturn⟩ := getLast?_text
  have hlength : (lines (statement.text layout)).length = statement.clauseLine layout := by
    rw [length_lines hlast hnewline hreturn, clauseLine, text, List.count_append,
      List.count_eq_zero.mpr newline_notMem_clause, Nat.add_zero]
  have hscan (content : List Char) : Detector.javaScript.scan (String.ofList content) =
      Detector.javaScript.hitsFrom .clear 0 (lines content) := by
    rw [Detector.scan_eq, String.toList_ofList]
  refine ⟨?_, ?_, ?_⟩
  · rw [Detector.scan_eq_of_clear habove hclear, hhits, hscan]
  · rw [Detector.read_state] at hclear ⊢
    rw [lines_append habove, Detector.stateAfter_append, hclear, hstate]
  · intro below
    rw [Detector.scan_eq_of_clear habove hclear, lines_append_newline_of_getLast? hlast hnewline
      hreturn, Detector.hitsFrom_append, hstate, hhits, hlength, hscan, hscan,
      ← Detector.hitsFrom_add, Nat.zero_add, List.singleton_append]

/-- A default name and two more, each on a line of its own. -/
def brokenImport : Statement where
  opening := .imports false (some ⟨"React".toList, by decide, List.all_eq_true.mp (by decide)⟩)
  names := [⟨⟨"useState".toList, by decide, List.all_eq_true.mp (by decide)⟩, none⟩,
    ⟨⟨"useEffect".toList, by decide, List.all_eq_true.mp (by decide)⟩,
      some ⟨"effect".toList, by decide, List.all_eq_true.mp (by decide)⟩⟩]
  quote := '\''
  isQuote_quote := rfl
  module := "react".toList
  isModuleChar_of_mem := List.all_eq_true.mp (by decide)
  not_isInfix_module := by decide

def brokenLayout : Layout where
  afterBrace := ⟨"\n  ".toList, List.all_eq_true.mp (by decide)⟩
  afterComma _ := ⟨"\n  ".toList, List.all_eq_true.mp (by decide)⟩
  lastComma := true
  beforeBrace := ⟨"\n".toList, List.all_eq_true.mp (by decide)⟩
  semicolon := true

theorem scan_text_brokenImport :
    brokenImport.text brokenLayout =
        "import React, \x7b\n  useState,\n  useEffect as effect,\n\x7d from 'react';".toList ∧
      (Detector.javaScript.read "import 'a'\n".toList).state = .clear ∧
      Detector.javaScript.scan
          (String.ofList ("import 'a'\n".toList ++ brokenImport.text brokenLayout)) =
        Detector.javaScript.scan (String.ofList "import 'a'\n".toList) ++
          [⟨5, "react", .imports⟩] := by
  have hclear : (Detector.javaScript.read "import 'a'\n".toList).state = .clear := by
    decide +kernel
  exact ⟨by decide, hclear,
    (scan_text brokenImport brokenLayout (by decide) (Or.inr (by decide)) hclear).1⟩

def moduleless : Statement :=
  { brokenImport with
    module := []
    isModuleChar_of_mem := List.all_eq_true.mp (by decide)
    not_isInfix_module := by decide }

/-- A clause that names no module is no clause: its line closes nothing and has no hit. -/
theorem scan_text_moduleless :
    ¬ ∀ statement layout, Detector.javaScript.scan (String.ofList (text statement layout)) =
        [⟨statement.clauseLine layout, String.ofList statement.module, .imports⟩] ∧
      (Detector.javaScript.read (statement.text layout)).state = .clear := by
  intro h
  have hnone : Detector.javaScript.scan (String.ofList (moduleless.text brokenLayout)) = [] := by
    decide +kernel
  have hhit := (h moduleless brokenLayout).1
  rw [hnone] at hhit
  cases hhit

end Statement

end Import.JavaScript

end RepoGraph
