import Mathlib.Data.List.Chain
import Mathlib.Data.List.Infix
import RepoGraph.Proofs.Manifest.GoRequirements

/-!
# Layouts of a `go.mod`

A `go.mod` may require modules one by one or in lists, with comments, blank lines and other
statements in between. Each of its lines is read by itself, but for the flag that tells whether a
list is open. So the layout does not matter: the statements on the lines are read in their order.
-/

namespace RepoGraph.Manifest

open Text

/-- Whether a piece of code stands on a line. Around it are blanks. Behind it may be a comment,
which starts where two slashes first stand side by side, so not right behind a slash of the code. -/
inductive StandsOn (code : List Char) : List Char → Prop
  | plain {indent behind : List Char} (hindent : ∀ c ∈ indent, isBlank c = true)
    (hbehind : ∀ c ∈ behind, isBlank c = true) : StandsOn code (indent ++ (code ++ behind))
  | commented {indent behind : List Char} (note : List Char)
    (hindent : ∀ c ∈ indent, isBlank c = true) (hbehind : ∀ c ∈ behind, isBlank c = true)
    (happart : behind = [] → code.getLast? ≠ some '/') :
    StandsOn code (indent ++ (code ++ behind) ++ (['/', '/'] ++ note))

private theorem isWord_iff_all {name : String} :
    (name ≠ "" ∧ (name.toList.all fun c => !isBlank c) = true) ↔ IsWord name := by
  simp [IsWord]

instance (name : String) : Decidable (IsWord name) := decidable_of_iff _ isWord_iff_all

/-- Whether a text can be written as the path of a module: a word without quotes in which no comment
starts. -/
structure IsModulePath (path : String) : Prop where
  isWord : IsWord path
  quote_notMem : '"' ∉ path.toList
  not_isInfix : ¬ ['/', '/'] <:+: path.toList

/-- Whether a module and its version can be written as a requirement: words in which no comment
starts, and of which the first does not look like the start or the end of a list. -/
structure IsRequirement (requirement : String × String) : Prop where
  isWord_module : IsWord requirement.1
  isWord_version : IsWord requirement.2
  not_isInfix_module : ¬ ['/', '/'] <:+: requirement.1.toList
  not_isInfix_version : ¬ ['/', '/'] <:+: requirement.2.toList
  head?_ne_open : requirement.1.toList.head? ≠ some '('
  head?_ne_close : requirement.1.toList.head? ≠ some ')'

instance (path : String) : Decidable (IsModulePath path) :=
  decidable_of_iff (IsWord path ∧ '"' ∉ path.toList ∧ ¬ ['/', '/'] <:+: path.toList)
    ⟨fun ⟨h, h', h''⟩ => ⟨h, h', h''⟩, fun ⟨h, h', h''⟩ => ⟨h, h', h''⟩⟩

instance (requirement : String × String) : Decidable (IsRequirement requirement) :=
  decidable_of_iff
    ((IsWord requirement.1 ∧ IsWord requirement.2) ∧
      (¬ ['/', '/'] <:+: requirement.1.toList ∧ ¬ ['/', '/'] <:+: requirement.2.toList) ∧
      requirement.1.toList.head? ≠ some '(' ∧ requirement.1.toList.head? ≠ some ')')
    ⟨fun ⟨⟨h, h'⟩, ⟨hi, hi'⟩, ho, hc⟩ => ⟨h, h', hi, hi', ho, hc⟩,
      fun ⟨h, h', hi, hi', ho, hc⟩ => ⟨⟨h, h'⟩, ⟨hi, hi'⟩, ho, hc⟩⟩

def requirementText (module version : String) (gap : List Char) : List Char :=
  module.toList ++ (gap ++ version.toList)

/-- The statements that are written on lines, in order. The flag tells whether the lines stand in a
list of requirements, which is closed before the end. Outside of lists a line may say anything but
what starts like a statement. -/
inductive Writes : Bool → List (List Char) → List GoStatement → Prop
  | nil : Writes false [] []
  | blank {inList : Bool} {line : List Char} {rest : List (List Char)}
    {statements : List GoStatement} (hline : StandsOn [] line)
    (hrest : Writes inList rest statements) : Writes inList (line :: rest) statements
  | other {line : List Char} {rest : List (List Char)} {statements : List GoStatement}
    (hmodule : ¬ "module ".toList <+: skipBlanks line)
    (hrequire : ¬ "require".toList <+: skipBlanks line) (hrest : Writes false rest statements) :
    Writes false (line :: rest) statements
  | module {path : String} {gap quote line : List Char} {rest : List (List Char)}
    {statements : List GoStatement} (hgap : ∀ c ∈ gap, isBlank c = true)
    (hquote : quote = [] ∨ quote = ['"'])
    (hline : StandsOn ("module ".toList ++ (gap ++ (quote ++ (path.toList ++ quote)))) line)
    (hrest : Writes false rest statements) :
    Writes false (line :: rest) (.module path :: statements)
  | single {module version : String} {before gap line : List Char} {rest : List (List Char)}
    {statements : List GoStatement} (hbefore : ∀ c ∈ before, isBlank c = true) (hne : before ≠ [])
    (hgap : ∀ c ∈ gap, isBlank c = true) (hgap_ne : gap ≠ [])
    (hline : StandsOn ("require".toList ++ (before ++ requirementText module version gap)) line)
    (hrest : Writes false rest statements) :
    Writes false (line :: rest) (.requires module version :: statements)
  | openList {before line : List Char} {rest : List (List Char)} {statements : List GoStatement}
    (hbefore : ∀ c ∈ before, isBlank c = true)
    (hline : StandsOn ("require".toList ++ (before ++ ['('])) line)
    (hrest : Writes true rest statements) : Writes false (line :: rest) statements
  | listed {module version : String} {gap line : List Char} {rest : List (List Char)}
    {statements : List GoStatement} (hgap : ∀ c ∈ gap, isBlank c = true) (hgap_ne : gap ≠ [])
    (hline : StandsOn (requirementText module version gap) line)
    (hrest : Writes true rest statements) :
    Writes true (line :: rest) (.requires module version :: statements)
  | closeList {line : List Char} {rest : List (List Char)} {statements : List GoStatement}
    (hline : StandsOn [')'] line) (hrest : Writes false rest statements) :
    Writes true (line :: rest) statements

def GoStatement.modulePath? : GoStatement → Option String
  | .module path => some path
  | .requires _ _ => none

/-- Whether a text is laid out as a `go.mod` with the line of a module and with requirements. -/
def LaysOut (content path : String) (requirements : List (String × String)) : Prop :=
  ∃ statements, Writes false (lines content.toList) statements ∧
    statements.filterMap GoStatement.modulePath? = [path] ∧
    statements.filterMap GoStatement.requirement? = requirements

def Apart (a b : Char) : Prop := ¬ (a = '/' ∧ b = '/')

private theorem isChain_apart_iff {s : List Char} : s.IsChain Apart ↔ ¬ ['/', '/'] <:+: s := by
  constructor
  · intro h hin
    have hpair : ['/', '/'].IsChain Apart := List.IsChain.infix h hin
    exact List.isChain_pair.mp hpair ⟨rfl, rfl⟩
  · intro h
    apply (List.isChain_isInfix s).imp
    rintro a b hin ⟨rfl, rfl⟩
    exact h hin

private theorem isChain_apart_of_notMem {s : List Char} (h : '/' ∉ s) : s.IsChain Apart :=
  isChain_apart_iff.mpr (not_isInfix_of_notMem List.mem_cons_self h)

private theorem isChain_apart_append {s t : List Char} (hs : s.IsChain Apart) (ht : t.IsChain Apart)
    (h : s.getLast? ≠ some '/' ∨ t.head? ≠ some '/') : (s ++ t).IsChain Apart := by
  refine List.isChain_append.mpr ⟨hs, ht, ?_⟩
  rintro a ha b hb ⟨rfl, rfl⟩
  rcases h with h | h
  · exact h ha
  · exact h hb

private theorem isChain_apart_append_of_notMem {s t : List Char} (hs : s.IsChain Apart)
    (ht : '/' ∉ t) :
    (s ++ t).IsChain Apart :=
  isChain_apart_append hs (isChain_apart_of_notMem ht)
    (Or.inr fun hhead => ht (List.mem_of_head? hhead))

private theorem isChain_apart_of_notMem_append {s t : List Char} (hs : '/' ∉ s)
    (ht : t.IsChain Apart) :
    (s ++ t).IsChain Apart :=
  isChain_apart_append (isChain_apart_of_notMem hs) ht
    (Or.inl fun hlast => hs (List.mem_of_getLast? hlast))

private theorem slash_notMem_blanks {blanks : List Char} (h : ∀ c ∈ blanks, isBlank c = true) :
    '/' ∉ blanks := fun hmem => absurd (h _ hmem) (by decide)

structure IsCode (code : List Char) : Prop where
  isChain : code.IsChain Apart
  isBlank_head? : ∀ c ∈ code.head?, isBlank c = false
  isBlank_getLast? : ∀ c ∈ code.getLast?, isBlank c = false

namespace IsCode

private theorem of_forall_isBlank {s : List Char} (hblank : ∀ c ∈ s, isBlank c = false)
    (h : ¬ ['/', '/'] <:+: s) : IsCode s where
  isChain := isChain_apart_iff.mpr h
  isBlank_head? _ hc := hblank _ (List.mem_of_mem_head? hc)
  isBlank_getLast? _ hc := hblank _ (List.mem_of_mem_getLast? hc)

theorem nil : IsCode [] := of_forall_isBlank (by simp) (by decide)

private theorem of_all {s : List Char} (h : (s.all fun c => !isBlank c && c != '/') = true) :
    IsCode s := by
  have hchar : ∀ c ∈ s, isBlank c = false ∧ c ≠ '/' := by simpa using h
  apply of_forall_isBlank fun c hc => (hchar c hc).1
  exact not_isInfix_of_notMem List.mem_cons_self fun hmem => (hchar _ hmem).2 rfl

theorem append {front gap back : List Char} (hfront : IsCode front) (hback : IsCode back)
    (hfront_ne : front ≠ []) (hback_ne : back ≠ []) (hgap : ∀ c ∈ gap, isBlank c = true)
    (happart : gap = [] → front.getLast? ≠ some '/') : IsCode (front ++ (gap ++ back)) where
  isChain := by
    have hslash : '/' ∉ gap := slash_notMem_blanks hgap
    apply isChain_apart_append hfront.isChain (isChain_apart_of_notMem_append hslash hback.isChain)
    cases gap with
    | nil => exact Or.inl (happart rfl)
    | cons c gap => exact Or.inr fun hhead => hslash (List.mem_of_head? hhead)
  isBlank_head? := by
    rw [List.head?_append_of_ne_nil _ hfront_ne]
    exact hfront.isBlank_head?
  isBlank_getLast? := by
    rw [List.getLast?_append_of_ne_nil _ (List.append_ne_nil_of_right_ne_nil _ hback_ne),
      List.getLast?_append_of_ne_nil _ hback_ne]
    exact hback.isBlank_getLast?

private theorem trim_eq {code : List Char} (h : IsCode code) : trim code = code := by
  have htrim := trim_append_blanks h.isBlank_head? h.isBlank_getLast? (List.forall_mem_nil _)
  rwa [List.append_nil] at htrim

section Line

variable {code indent behind : List Char} (hcode : IsCode code)
  (hindent : ∀ c ∈ indent, isBlank c = true) (hbehind : ∀ c ∈ behind, isBlank c = true)
include hindent hbehind

private theorem getLast?_line_ne (h : behind = [] → code.getLast? ≠ some '/') :
    (indent ++ (code ++ behind)).getLast? ≠ some '/' := by
  rw [List.getLast?_append, List.getLast?_append]
  intro hlast
  rcases Option.or_eq_some_iff.mp hlast with hlast | ⟨-, hlast⟩
  · rcases Option.or_eq_some_iff.mp hlast with hlast | ⟨hnone, hlast⟩
    · exact slash_notMem_blanks hbehind (List.mem_of_getLast? hlast)
    · exact h (List.getLast?_eq_none_iff.mp hnone) hlast
  · exact slash_notMem_blanks hindent (List.mem_of_getLast? hlast)

include hcode

private theorem isChain_line : (indent ++ (code ++ behind)).IsChain Apart :=
  isChain_apart_of_notMem_append (slash_notMem_blanks hindent)
    (isChain_apart_append_of_notMem hcode.isChain (slash_notMem_blanks hbehind))

private theorem trim_line : trim (indent ++ (code ++ behind)) = code := by
  rw [trim_blanks_append hindent,
    trim_append_blanks hcode.isBlank_head? hcode.isBlank_getLast? hbehind]

end Line

end IsCode

private theorem goCode_of_standsOn {code line : List Char} (hcode : IsCode code)
    (h : StandsOn code line) : goCode line = code := by
  cases h with
  | plain hindent hbehind =>
    have hno := isChain_apart_iff.mp (hcode.isChain_line hindent hbehind)
    rw [goCode, cut?_eq_none (by decide) hno]
    exact hcode.trim_line hindent hbehind
  | commented note hindent hbehind happart =>
    -- The first slash of the comment makes no pair with what stands in front of it.
    have hfront := isChain_apart_append (hcode.isChain_line hindent hbehind)
      (List.isChain_singleton '/') (Or.inl (IsCode.getLast?_line_ne hindent hbehind happart))
    have hcut := cut?_append_of_not_isInfix (List.cons_ne_nil '/' ['/'])
      (isChain_apart_iff.mp hfront) note
    rw [goCode, hcut]
    exact hcode.trim_line hindent hbehind

private theorem goCode_isPrefix (line : List Char) : goCode line <+: skipBlanks line := by
  rw [goCode]
  split
  · rename_i code note hcut
    have hcode : code <+: line := eq_append_of_cut? hcut ▸ List.prefix_append _ _
    exact (cutBlanks_isPrefix _).trans (skipBlanks_isPrefix hcode)
  · exact cutBlanks_isPrefix _

private theorem readGoLine_blank {line : List Char} (h : goCode line = []) (inList : Bool) :
    readGoLine inList line = (inList, none) := by
  rw [readGoLine, h]

private theorem readGoLine_inList {line : List Char} (h : goCode line ≠ []) :
    readGoLine true line =
      if (goCode line).head? = some ')' then (false, none)
      else (true, goRequirement? (goCode line)) := by
  unfold readGoLine
  split
  · contradiction
  · rfl

private theorem readGoLine_module {line path : List Char}
    (h : goCode line = "module ".toList ++ path) :
    readGoLine false line = (false, some (.module (String.ofList (unquote (trim path))))) := by
  rw [readGoLine, h]
  rfl

private theorem readGoLine_require {line rest : List Char}
    (h : goCode line = "require".toList ++ rest) :
    readGoLine false line =
      if (trim rest).head? = some '(' then (true, none)
      else (false, goRequirement? (trim rest)) := by
  have hmodule : stripStart? "module ".toList ("require".toList ++ rest) = none := rfl
  have hrequire : stripStart? "require".toList ("require".toList ++ rest) = some rest := rfl
  unfold readGoLine
  split
  · rename_i hnil
    rw [h] at hnil
    cases hnil
  · rw [if_neg Bool.false_ne_true, h, hmodule, hrequire, Option.map_some]
    dsimp only
    split
    · rename_i tail heq
      rw [Option.some.inj heq]
      rfl
    · rename_i code hopen heq
      obtain rfl := Option.some.inj heq
      rw [if_neg]
      intro hhead
      obtain ⟨tail, htail⟩ := List.head?_eq_some_iff.mp hhead
      exact hopen tail htail
    · contradiction

private theorem readGoLine_other {line : List Char} (hmodule : ¬ "module ".toList <+: goCode line)
    (hrequire : ¬ "require".toList <+: goCode line) : readGoLine false line = (false, none) := by
  have hnone {pre : List Char} (h : ¬ pre <+: goCode line) :
      stripStart? pre (goCode line) = none := by
    rwa [← isSome_stripStart?_iff, Bool.not_eq_true, Option.isSome_eq_false_iff,
      Option.isNone_iff_eq_none] at h
  unfold readGoLine
  split
  · rfl
  · rw [if_neg Bool.false_ne_true, hnone hmodule, hnone hrequire]
    rfl

namespace IsRequirement

variable {module version : String} (h : IsRequirement (module, version)) {gap : List Char}
  (hgap : ∀ c ∈ gap, isBlank c = true) (hne : gap ≠ [])
include h

private theorem module_ne_nil :
    module.toList ≠ [] := mt String.toList_eq_nil_iff.mp h.isWord_module.1

private theorem version_ne_nil :
    version.toList ≠ [] := mt String.toList_eq_nil_iff.mp h.isWord_version.1

private theorem requirementText_ne_nil (gap : List Char) :
    requirementText module version gap ≠ [] :=
  List.append_ne_nil_of_left_ne_nil h.module_ne_nil _

private theorem head?_requirementText (gap : List Char) :
    (requirementText module version gap).head? = module.toList.head? :=
  List.head?_append_of_ne_nil _ h.module_ne_nil

include hgap hne

private theorem isCode : IsCode (requirementText module version gap) :=
  .append (.of_forall_isBlank h.isWord_module.2 h.not_isInfix_module)
    (.of_forall_isBlank h.isWord_version.2 h.not_isInfix_version) h.module_ne_nil h.version_ne_nil
    hgap (fun hnil => absurd hnil hne)

private theorem words_requirementText :
    words (requirementText module version gap) = [module.toList, version.toList] := by
  obtain ⟨c, gap, rfl⟩ := List.exists_cons_of_ne_nil hne
  obtain ⟨hc, hgap⟩ := List.forall_mem_cons.mp hgap
  rw [requirementText, List.cons_append, words_append_of_isBlank hc, words_blanks_append hgap,
    words_of_forall_isBlank h.module_ne_nil h.isWord_module.2,
    words_of_forall_isBlank h.version_ne_nil h.isWord_version.2, List.singleton_append]

private theorem goRequirement?_eq :
    goRequirement? (requirementText module version gap) = some (.requires module version) := by
  rw [goRequirement?, h.words_requirementText hgap hne]
  simp only [String.ofList_toList]

end IsRequirement

namespace IsModulePath

variable {path : String} (h : IsModulePath path) {quote : List Char}
  (hquote : quote = [] ∨ quote = ['"'])
include h

private theorem toList_ne_nil : path.toList ≠ [] := mt String.toList_eq_nil_iff.mp h.isWord.1

private theorem quoted_ne_nil (quote : List Char) : quote ++ (path.toList ++ quote) ≠ [] :=
  List.append_ne_nil_of_right_ne_nil _ (List.append_ne_nil_of_left_ne_nil h.toList_ne_nil _)

include hquote

private theorem isCode_quoted : IsCode (quote ++ (path.toList ++ quote)) := by
  have hblank : ∀ c ∈ quote, isBlank c = false := by
    rcases hquote with rfl | rfl
    · exact List.forall_mem_nil _
    · exact List.forall_mem_singleton.mpr rfl
  have hslash : '/' ∉ quote := by
    rcases hquote with rfl | rfl <;> decide
  apply IsCode.of_forall_isBlank
  · exact List.forall_mem_append.mpr ⟨hblank, List.forall_mem_append.mpr ⟨h.isWord.2, hblank⟩⟩
  · have hpath := isChain_apart_iff.mpr h.not_isInfix
    exact isChain_apart_iff.mp
      (isChain_apart_of_notMem_append hslash (isChain_apart_append_of_notMem hpath hslash))

private theorem unquote_quoted : unquote (quote ++ (path.toList ++ quote)) = path.toList := by
  have hrun : ∀ c ∈ quote, (c == '"') = true := by
    rcases hquote with rfl | rfl
    · exact List.forall_mem_nil _
    · exact List.forall_mem_singleton.mpr rfl
  have hpath : ∀ c ∈ path.toList, (c == '"') = false := by
    intro c hc
    rw [beq_eq_false_iff_ne]
    rintro rfl
    exact h.quote_notMem hc
  have hstart : ∀ c ∈ (path.toList ++ quote).head?, (c == '"') = false := by
    rw [List.head?_append_of_ne_nil _ h.toList_ne_nil]
    exact fun c hc => hpath c (List.mem_of_head? hc)
  have hend : ∀ c ∈ path.toList.reverse.head?, (c == '"') = false := fun c hc =>
    hpath c (List.mem_reverse.mp (List.mem_of_head? hc))
  have hrun' : ∀ c ∈ quote.reverse, (c == '"') = true := fun c hc =>
    hrun c (List.mem_reverse.mp hc)
  rw [unquote, dropWhile_append_of_head? hrun hstart, cutEndWhile, List.reverse_append,
    dropWhile_append_of_head? hrun' hend, List.reverse_reverse]

end IsModulePath

def GoStatement.IsWritable : GoStatement → Prop
  | .module path => IsModulePath path
  | .requires name version => IsRequirement (name, version)

section Kinds

variable {line gap : List Char} (hgap : ∀ c ∈ gap, isBlank c = true)
include hgap

private theorem readGoLine_of_module {path : String} {quote : List Char} (hpath : IsModulePath path)
    (hquote : quote = [] ∨ quote = ['"'])
    (hline : StandsOn ("module ".toList ++ (gap ++ (quote ++ (path.toList ++ quote)))) line) :
    readGoLine false line = (false, some (.module path)) := by
  have hpath_code := hpath.isCode_quoted hquote
  have hcode : IsCode ("module".toList ++ ((' ' :: gap) ++ (quote ++ (path.toList ++ quote)))) :=
    .append (.of_all (by decide)) hpath_code (by decide) (hpath.quoted_ne_nil quote)
      (List.forall_mem_cons.mpr ⟨by decide, hgap⟩) (fun hnil => by cases hnil)
  have hwritten : goCode line = "module ".toList ++ (gap ++ (quote ++ (path.toList ++ quote))) :=
    goCode_of_standsOn hcode hline
  rw [readGoLine_module hwritten, trim_blanks_append hgap, hpath_code.trim_eq,
    hpath.unquote_quoted hquote, String.ofList_toList]

private theorem readGoLine_of_open (hline : StandsOn ("require".toList ++ (gap ++ ['('])) line) :
    readGoLine false line = (true, none) := by
  have hcode : IsCode ("require".toList ++ (gap ++ ['('])) :=
    .append (.of_all (by decide)) (.of_all (by decide)) (by decide) (by decide) hgap
      (fun _ => by decide)
  rw [readGoLine_require (goCode_of_standsOn hcode hline), trim_blanks_append hgap]
  rfl

private theorem readGoLine_of_single {module version : String} {before : List Char}
    (h : IsRequirement (module, version)) (hgap_ne : gap ≠ [])
    (hbefore : ∀ c ∈ before, isBlank c = true)
    (hline : StandsOn ("require".toList ++ (before ++ requirementText module version gap)) line) :
    readGoLine false line = (false, some (.requires module version)) := by
  have htext := h.isCode hgap hgap_ne
  have hcode : IsCode ("require".toList ++ (before ++ requirementText module version gap)) :=
    .append (.of_all (by decide)) htext (by decide) (h.requirementText_ne_nil gap) hbefore
      (fun _ => by decide)
  rw [readGoLine_require (goCode_of_standsOn hcode hline), trim_blanks_append hbefore,
    htext.trim_eq, h.head?_requirementText, if_neg h.head?_ne_open,
    h.goRequirement?_eq hgap hgap_ne]

private theorem readGoLine_of_listed {module version : String} (h : IsRequirement (module, version))
    (hgap_ne : gap ≠ []) (hline : StandsOn (requirementText module version gap) line) :
    readGoLine true line = (true, some (.requires module version)) := by
  have hcode := goCode_of_standsOn (h.isCode hgap hgap_ne) hline
  have hne : goCode line ≠ [] := hcode ▸ h.requirementText_ne_nil gap
  rw [readGoLine_inList hne, hcode, h.head?_requirementText, if_neg h.head?_ne_close,
    h.goRequirement?_eq hgap hgap_ne]

end Kinds

private theorem readGoLine_of_close {line : List Char} (hline : StandsOn [')'] line) :
    readGoLine true line = (false, none) := by
  have hcode := goCode_of_standsOn (.of_all (by decide)) hline
  rw [readGoLine_inList (hcode ▸ List.cons_ne_nil _ _), hcode]
  rfl

private theorem readGoLine_of_other {line : List Char}
    (hmodule : ¬ "module ".toList <+: skipBlanks line)
    (hrequire : ¬ "require".toList <+: skipBlanks line) : readGoLine false line = (false, none) :=
  readGoLine_other (fun h => hmodule (h.trans (goCode_isPrefix line)))
    (fun h => hrequire (h.trans (goCode_isPrefix line)))

/-- What is written on lines is read off them, and the flag follows the lists: each line leaves it
as the lines behind it need it. -/
theorem goStatements_of_writes {inList : Bool} {rest : List (List Char)}
    {statements : List GoStatement} (h : Writes inList rest statements)
    (hwritable : ∀ statement ∈ statements, statement.IsWritable) :
    goStatements inList rest = statements := by
  induction h with
  | nil => rfl
  | blank hline _ ih =>
    rw [goStatements, readGoLine_blank (goCode_of_standsOn .nil hline)]
    exact ih hwritable
  | other hmodule hrequire _ ih =>
    rw [goStatements, readGoLine_of_other hmodule hrequire]
    exact ih hwritable
  | module hgap hquote hline _ ih =>
    obtain ⟨hpath, hwritable⟩ := List.forall_mem_cons.mp hwritable
    rw [goStatements, readGoLine_of_module hgap hpath hquote hline]
    exact congrArg (List.cons _) (ih hwritable)
  | single hbefore _ hgap hgap_ne hline _ ih =>
    obtain ⟨hrequirement, hwritable⟩ := List.forall_mem_cons.mp hwritable
    rw [goStatements, readGoLine_of_single hgap hrequirement hgap_ne hbefore hline]
    exact congrArg (List.cons _) (ih hwritable)
  | openList hbefore hline _ ih =>
    rw [goStatements, readGoLine_of_open hbefore hline]
    exact ih hwritable
  | listed hgap hgap_ne hline _ ih =>
    obtain ⟨hrequirement, hwritable⟩ := List.forall_mem_cons.mp hwritable
    rw [goStatements, readGoLine_of_listed hgap hrequirement hgap_ne hline]
    exact congrArg (List.cons _) (ih hwritable)
  | closeList hline _ ih =>
    rw [goStatements, readGoLine_of_close hline]
    exact ih hwritable

private theorem modulePath_declare (manifest : Manifest) (name version : String) :
    (manifest.declare name version).modulePath = manifest.modulePath := by
  rw [declare]
  split <;> rfl

private theorem modulePath_foldl_addGoStatement (manifest : Manifest)
    (statements : List GoStatement) :
    (statements.foldl addGoStatement manifest).modulePath =
      (statements.filterMap GoStatement.modulePath?).getLast?.or manifest.modulePath := by
  induction statements generalizing manifest with
  | nil => rfl
  | cons statement rest ih =>
    rw [List.foldl_cons, ih]
    cases statement with
    | module path =>
      have hfirst : (GoStatement.module path :: rest).filterMap GoStatement.modulePath? =
          path :: rest.filterMap GoStatement.modulePath? := rfl
      rw [hfirst, List.getLast?_cons]
      cases (rest.filterMap GoStatement.modulePath?).getLast? <;> rfl
    | requires name version =>
      rw [List.filterMap_cons_none rfl, addGoStatement, modulePath_declare]

private theorem goStatements_of_laysOut {content path : String}
    {requirements : List (String × String)}
    (hpath : IsModulePath path) (hrequirements : ∀ r ∈ requirements, IsRequirement r)
    (h : LaysOut content path requirements) :
    (goStatements false (lines content.toList)).filterMap GoStatement.modulePath? = [path] ∧
      goRequirements content = requirements := by
  obtain ⟨statements, hwrites, hmodules, hrequires⟩ := h
  have hwritable : ∀ statement ∈ statements, statement.IsWritable := by
    intro statement hmem
    cases statement with
    | module other =>
      have hother : other ∈ statements.filterMap GoStatement.modulePath? :=
        List.mem_filterMap.mpr ⟨_, hmem, rfl⟩
      rw [hmodules, List.mem_singleton] at hother
      exact hother ▸ hpath
    | requires name version =>
      apply hrequirements
      rw [← hrequires]
      exact List.mem_filterMap.mpr ⟨_, hmem, rfl⟩
  rw [goRequirements, goStatements_of_writes hwrites hwritable]
  exact ⟨hmodules, hrequires⟩

/-- However a `go.mod` is laid out, it declares the path of its module, and each module that it
requires, in lower case, with the version of the first requirement. -/
theorem parse_of_laysOut {file content path : String} {requirements : List (String × String)}
    (hfile : Path.fileName file = "go.mod") (hpath : IsModulePath path)
    (hrequirements : ∀ requirement ∈ requirements, IsRequirement requirement)
    (h : LaysOut content path requirements) :
    ∃ manifest, parse file content = .ok manifest ∧
      manifest.modulePath = some path ∧
      (manifest.dependencies.map (·.1)).Nodup ∧
      ∀ key, manifest.dependencies.lookup key =
        (requirements.find? fun requirement => lowered requirement.1 = key).map (·.2) := by
  obtain ⟨hmodules, hrequires⟩ := goStatements_of_laysOut hpath hrequirements h
  have hkind : ManifestKind.ofFileName? "go.mod" = some .goMod := rfl
  have hparse : parse file content = .ok
      ((goStatements false (lines content.toList)).foldl addGoStatement (empty file .goMod)) := by
    rw [parse, hfile, hkind]
    rfl
  refine ⟨_, hparse, ?_, ?_⟩
  · rw [modulePath_foldl_addGoStatement, hmodules]
    rfl
  · have hmod := isGoMod_of_parse hparse ((isAt_empty file .goMod).foldl_addGoStatement _).kind_eq
    refine ⟨hmod.nodup_dependencies, fun key => ?_⟩
    by_cases hkey : key = ""
    · -- No module has an empty name, and nothing is declared under one.
      subst hkey
      have hundeclared := List.lookup_eq_none_iff.mpr fun declaration hmem =>
        bne_iff_ne.mpr (hmod.ne_empty_of_mem hmem).symm
      have hunrequired :
          requirements.find? (fun requirement => lowered requirement.1 = "") = none := by
        rw [List.find?_eq_none]
        intro requirement hmem
        rw [decide_eq_true_iff]
        exact lowered_ne_empty (hrequirements requirement hmem).isWord_module.1
      rw [hundeclared, hunrequired, Option.map_none]
    · rw [hmod.lookup_eq hkey, hrequires]

/-- A `go.mod` whose requirements are in part listed, with comments and other lines in between. -/
def mixedLayout : String :=
  "// Tools\nmodule \"x.io/App\"\n\ngo 1.21 // old\nrequire x.io/Pkg\tv3\n" ++
    "require( // more\r\n\tx.io/pkg v1 // indirect\r\n\n\ty.io/mod  v0\n) // end\n" ++
    "exclude y.io/mod v2\n"

def mixedRequirements : List (String × String) :=
  [("x.io/Pkg", "v3"), ("x.io/pkg", "v1"), ("y.io/mod", "v0")]

private theorem laysOut_mixedLayout : LaysOut mixedLayout "x.io/App" mixedRequirements := by
  have hlines : lines mixedLayout.toList =
      [[] ++ ([] ++ []) ++ (['/', '/'] ++ " Tools".toList),
        [] ++ ("module ".toList ++ ([] ++ (['"'] ++ ("x.io/App".toList ++ ['"']))) ++ []),
        [] ++ ([] ++ []),
        "go 1.21 // old".toList,
        [] ++ ("require".toList ++ ([' '] ++ requirementText "x.io/Pkg" "v3" ['\t']) ++ []),
        [] ++ ("require".toList ++ ([] ++ ['(']) ++ [' ']) ++ (['/', '/'] ++ " more".toList),
        ['\t'] ++ (requirementText "x.io/pkg" "v1" [' '] ++ [' ']) ++ (['/', '/'] ++
          " indirect".toList),
        [] ++ ([] ++ []),
        ['\t'] ++ (requirementText "y.io/mod" "v0" [' ', ' '] ++ []),
        [] ++ ([')'] ++ [' ']) ++ (['/', '/'] ++ " end".toList),
        "exclude y.io/mod v2".toList] := by
    decide +kernel
  refine ⟨[.module "x.io/App", .requires "x.io/Pkg" "v3", .requires "x.io/pkg" "v1",
    .requires "y.io/mod" "v0"], ?_, rfl, rfl⟩
  have hnone : ∀ c ∈ ([] : List Char), isBlank c = true := List.forall_mem_nil _
  have htab : ∀ c ∈ ['\t'], isBlank c = true := List.forall_mem_singleton.mpr rfl
  have hspace : ∀ c ∈ [' '], isBlank c = true := List.forall_mem_singleton.mpr rfl
  have hspaces : ∀ c ∈ [' ', ' '], isBlank c = true := List.forall_mem_cons.mpr ⟨rfl, hspace⟩
  rw [hlines]
  refine .blank (.commented _ hnone hnone (by decide)) ?_
  refine .module hnone (Or.inr rfl) (.plain hnone hnone) ?_
  refine .blank (.plain hnone hnone) ?_
  refine .other (by decide) (by decide) ?_
  refine .single hspace (by decide) htab (by decide) (.plain hnone hnone) ?_
  refine .openList hnone (.commented _ hnone hspace (by decide)) ?_
  refine .listed hspace (by decide) (.commented _ htab hspace (by decide)) ?_
  refine .blank (.plain hnone hnone) ?_
  refine .listed hspaces (by decide) (.plain htab hnone) ?_
  refine .closeList (.commented _ hnone hspace (by decide)) ?_
  exact .other (by decide) (by decide) .nil

theorem parse_of_laysOut_mixed :
    Path.fileName "tools/go.mod" = "go.mod" ∧ IsModulePath "x.io/App" ∧
      (∀ requirement ∈ mixedRequirements, IsRequirement requirement) ∧
      LaysOut mixedLayout "x.io/App" mixedRequirements ∧
      ∃ manifest, parse "tools/go.mod" mixedLayout = .ok manifest ∧
        manifest.modulePath = some "x.io/App" ∧
        manifest.dependencies.lookup "x.io/pkg" = some "v3" := by
  have hfile : Path.fileName "tools/go.mod" = "go.mod" := by decide +kernel
  have hpath : IsModulePath "x.io/App" := by decide +kernel
  have hrequirements : ∀ requirement ∈ mixedRequirements, IsRequirement requirement := by
    decide +kernel
  obtain ⟨manifest, hparse, hmodule, -, hlookup⟩ :=
    parse_of_laysOut hfile hpath hrequirements laysOut_mixedLayout
  refine ⟨hfile, hpath, hrequirements, laysOut_mixedLayout, manifest, hparse, hmodule, ?_⟩
  rw [hlookup]
  decide +kernel

end RepoGraph.Manifest
