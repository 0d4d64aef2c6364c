import Mathlib.Data.List.Chain
import RepoGraph.Proofs.Source.Scan

/-!
# Line comments

A line that holds a comment only changes nothing but the numbers of the lines behind it, unless the
comment's text opens a block comment or a docstring that it does not close.
-/

namespace RepoGraph

open Text

namespace CommentStyle

def marker : CommentStyle → List Char
  | slash | slashAndHash => ['/', '/']
  | hash | hashAndDocstring => ['#']

/-- Whether a text has an open block comment or docstring in it. -/
def LeavesOpen : CommentStyle → List Char → Prop
  | slash, text | slashAndHash, text =>
    ∃ before inside, cut? ['/', '*'] text = some (before, inside) ∧ cut? ['*', '/'] inside = none
  | hash, _ => False
  | hashAndDocstring, text =>
    occurrences ['"', '"', '"'] text % 2 = 1 ∨ occurrences ['\'', '\'', '\''] text % 2 = 1

def openStates : CommentStyle → List CommentState
  | slash | slashAndHash | hash => [.block]
  | hashAndDocstring => [.docstring '"', .docstring '\'']

end CommentStyle

namespace CommentState

def IsLeftBy (state : CommentState) (style : CommentStyle) (text : List Char) : Prop :=
  (state = .code ∧ ¬ style.LeavesOpen text) ∨ (state ∈ style.openStates ∧ style.LeavesOpen text)

/-- Whether two characters next to each other open no slash comment. -/
def OpensNone (a b : Char) : Prop :=
  ¬ (a = '/' ∧ b = '*') ∧ (b = '/' → (isBlank a || a == ';') = false)

private theorem cutMarkerFrom_eq {before : Option Char} {s : List Char}
    (hbefore : s.head? = some '/' → ∃ b ∈ before, (isBlank b || b == ';') = false)
    (hchain : s.IsChain OpensNone) (done : List Char) (skip : Nat) :
    cutMarkerFrom ['/', '/'] before done skip s = done.reverse ++ s := by
  induction s generalizing before done skip with
  | nil => cases skip <;> simp [cutMarkerFrom]
  | cons c s ih =>
    have hnext : s.head? = some '/' → ∃ b ∈ some c, (isBlank b || b == ';') = false := by
      intro hs
      obtain ⟨t, rfl⟩ := List.head?_eq_some_iff.mp hs
      exact ⟨c, rfl, (List.isChain_cons_cons.mp hchain).1.2 rfl⟩
    have hrest := fun skip => ih hnext hchain.tail (c :: done) skip
    cases skip with
    | succ skip =>
      rw [cutMarkerFrom, hrest, List.reverse_cons, List.append_assoc, List.singleton_append]
    | zero =>
      rw [cutMarkerFrom]
      split
      · rename_i hstart
        obtain ⟨rest, hrest'⟩ := Option.isSome_iff_exists.mp hstart
        have hslash : c = '/' := (List.cons.inj (stripStart?_eq_some_iff.mp hrest')).1
        obtain ⟨b, hb, hopens⟩ := hbefore (by rw [hslash]; rfl)
        rw [Option.mem_def.mp hb, Option.all_some, hopens, if_neg Bool.false_ne_true, hrest,
          List.reverse_cons, List.append_assoc, List.singleton_append]
      · rw [hrest, List.reverse_cons, List.append_assoc, List.singleton_append]

/-- A line none of whose neighbours open a comment is all code. -/
theorem readSlash_of_isChain {line : List Char} (hhead : line.head? ≠ some '/')
    (hchain : line.IsChain OpensNone) : readSlash .code line = (.code, line) := by
  have hcut : cut? ['/', '*'] line = none := by
    apply cut?_eq_none (List.cons_ne_nil _ _)
    intro hin
    have hpair : ['/', '*'].IsChain OpensNone := List.IsChain.infix hchain hin
    exact (List.isChain_pair.mp hpair).1 ⟨rfl, rfl⟩
  rw [readSlash, openBlock, hcut, Prod.map_apply, cutMarker,
    cutMarkerFrom_eq (fun h => absurd h hhead) hchain]
  rfl

theorem isChain_of_notMem {line : List Char} (h : '/' ∉ line) :
    line.IsChain OpensNone := by
  apply (List.isChain_isInfix line).imp
  intro a b hin
  have hne : ∀ c ∈ [a, b], c ≠ '/' := fun c hc => ne_of_mem_of_not_mem (hin.subset hc) h
  have hb : b ≠ '/' := hne b (List.mem_cons_of_mem a List.mem_cons_self)
  exact ⟨fun hab => hne a List.mem_cons_self hab.1, fun hslash => absurd hslash hb⟩

theorem isChain_of_not_isInfix {word : List Char}
    (hword : ∀ c ∈ word, isBlank c = false ∧ c ≠ ';') (hblock : ¬ ['/', '*'] <:+: word) :
    word.IsChain OpensNone := by
  apply (List.isChain_isInfix word).imp
  intro a b hin
  obtain ⟨hblank, hsemicolon⟩ := hword a (hin.subset List.mem_cons_self)
  constructor
  · rintro ⟨rfl, rfl⟩
    exact hblock hin
  · intro _
    rw [hblank, Bool.false_or]
    simpa using hsemicolon

private theorem cutMarkerFrom_of_not_isInfix {marker s : List Char} (h : ¬ marker <:+: s)
    (before : Option Char) (done : List Char) :
    cutMarkerFrom marker before done 0 s = done.reverse ++ s := by
  induction s generalizing before done with
  | nil => rw [cutMarkerFrom, List.append_nil]
  | cons c s ih =>
    have hstart : ¬ startsWith marker (c :: s) = true := by
      intro hstart
      obtain ⟨rest, hrest⟩ := Option.isSome_iff_exists.mp hstart
      rw [stripStart?_eq_some_iff.mp hrest] at h
      exact h (List.prefix_append marker rest).isInfix
    rw [cutMarkerFrom, if_neg hstart, ih fun hin => h (hin.trans (List.suffix_cons c s).isInfix),
      List.reverse_cons, List.append_assoc, List.singleton_append]

theorem readSlash_of_not_isInfix {line : List Char} (hline : ¬ ['/', '/'] <:+: line)
    (hblock : ¬ ['/', '*'] <:+: line) : readSlash .code line = (.code, line) := by
  rw [readSlash, openBlock, cut?_eq_none (List.cons_ne_nil _ _) hblock, Prod.map_apply, cutMarker,
    cutMarkerFrom_of_not_isInfix hline]
  rfl

end CommentState

theorem Detector.readLine_of_allCode {detector : Detector} {line : List Char}
    (h : CommentState.readLine detector.commentStyle .code line = (.code, line)) (opened : Bool) :
    detector.readLine ⟨.code, opened⟩ line =
      if allBlank line then (⟨.code, opened⟩, [])
      else (⟨.code, (detector.readCode opened line).1⟩, (detector.readCode opened line).2) := by
  rw [readLine]
  dsimp only
  rw [h]

namespace CommentState

private theorem cutMarker_append {marker : List Char} (hne : marker ≠ []) (rest : List Char) :
    cutMarker marker (marker ++ rest) = [] := by
  cases marker with
  | nil => exact absurd rfl hne
  | cons c marker =>
    have hstart : startsWith (c :: marker) (c :: (marker ++ rest)) = true := by
      rw [startsWith, Option.isSome_iff_exists]
      exact ⟨rest, stripStart?_eq_some_iff.mpr rfl⟩
    rw [cutMarker, List.cons_append, cutMarkerFrom, if_pos hstart]
    rfl

private theorem openBlock_comment (text : List Char) :
    ∃ state rest, openBlock ('/' :: '/' :: ' ' :: text) = (state, ['/', '/'] ++ rest) ∧
      state.IsLeftBy .slash text := by
  have hcut : cut? ['/', '*'] ('/' :: '/' :: ' ' :: text) =
      (cut? ['/', '*'] text).map fun parts => ('/' :: '/' :: ' ' :: parts.1, parts.2) := by
    rw [cut?_cons (by rfl), cut?_cons (by rfl), cut?_cons (by rfl), Option.map_map, Option.map_map]
    rfl
  rw [openBlock, hcut]
  cases hopen : cut? ['/', '*'] text with
  | none =>
    refine ⟨.code, ' ' :: text, rfl, Or.inl ⟨rfl, ?_⟩⟩
    rintro ⟨before, inside, hsome, -⟩
    rw [hopen] at hsome
    cases hsome
  | some parts =>
    obtain ⟨before, inside⟩ := parts
    have hblank : allBlank ('/' :: '/' :: ' ' :: before) = false := rfl
    dsimp only [Option.map_some]
    cases hclose : cut? ['*', '/'] inside with
    | none =>
      exact ⟨.block, ' ' :: before, rfl, Or.inr ⟨List.mem_cons_self, before, inside, hopen, hclose⟩⟩
    | some rest =>
      obtain ⟨within, after⟩ := rest
      refine ⟨.code, ' ' :: before, ?_, Or.inl ⟨rfl, ?_⟩⟩
      · dsimp only
        rw [hblank, if_neg Bool.false_ne_true]
        rfl
      · rintro ⟨before', inside', hsome, hnone⟩
        obtain ⟨rfl, rfl⟩ := Prod.mk.inj (Option.some.inj (hopen.symm.trans hsome))
        rw [hclose] at hnone
        cases hnone

private theorem readSlash_comment (text : List Char) :
    ∃ state, readSlash .code ('/' :: '/' :: ' ' :: text) = (state, []) ∧
      state.IsLeftBy .slash text := by
  obtain ⟨state, rest, hopen, hstate⟩ := openBlock_comment text
  refine ⟨state, ?_, hstate⟩
  rw [readSlash, hopen, Prod.map_apply, cutMarker_append (List.cons_ne_nil _ _), id]

section Quote

variable {quote : Char} (hhash : quote ≠ '#') (hblank : quote ≠ ' ') (text : List Char)
include hhash hblank

private theorem startsWith_quotes_comment {s : List Char} :
    startsWith [quote, quote, quote] ('#' :: s) = false ∧
      startsWith [quote, quote, quote] (' ' :: s) = false := by
  rw [startsWith, startsWith, stripStart?, stripStart?, if_neg (by simpa using hhash),
    if_neg (by simpa using hblank)]
  exact ⟨rfl, rfl⟩

private theorem occurrences_comment : occurrences [quote, quote, quote] ('#' :: ' ' :: text) =
    occurrences [quote, quote, quote] text := by
  obtain ⟨hfirst, -⟩ := startsWith_quotes_comment hhash hblank (s := ' ' :: text)
  obtain ⟨-, hsecond⟩ := startsWith_quotes_comment hhash hblank (s := text)
  rw [occurrences, countFrom, if_neg (by simp [hfirst]), countFrom, if_neg (by simp [hsecond]),
    occurrences]

private theorem cut?_comment (hodd : occurrences [quote, quote, quote] text % 2 = 1) :
    ∃ before inside, cut? [quote, quote, quote] ('#' :: ' ' :: text) =
      some ('#' :: before, inside) := by
  obtain ⟨hfirst, -⟩ := startsWith_quotes_comment hhash hblank (s := ' ' :: text)
  obtain ⟨-, hsecond⟩ := startsWith_quotes_comment hhash hblank (s := text)
  cases hcut : cut? [quote, quote, quote] text with
  | none =>
    rw [occurrences_of_cut?_eq_none hcut] at hodd
    cases hodd
  | some parts =>
    refine ⟨' ' :: parts.1, parts.2, ?_⟩
    rw [cut?_cons hfirst, cut?_cons hsecond, hcut]
    rfl

end Quote

private theorem openDocstring_comment (text : List Char) :
    ∃ state rest, openDocstring ('#' :: ' ' :: text) = (state, ['#'] ++ rest) ∧
      state.IsLeftBy .hashAndDocstring text := by
  rw [openDocstring]
  dsimp only
  rw [occurrences_comment (by decide) (by decide), occurrences_comment (by decide) (by decide)]
  by_cases hdouble : occurrences ['"', '"', '"'] text % 2 = 1
  · obtain ⟨before, inside, hcut⟩ := cut?_comment (by decide) (by decide) text hdouble
    rw [if_pos hdouble, hcut]
    exact ⟨.docstring '"', before, rfl, Or.inr ⟨by decide, Or.inl hdouble⟩⟩
  · rw [if_neg hdouble]
    by_cases hsingle : occurrences ['\'', '\'', '\''] text % 2 = 1
    · obtain ⟨before, inside, hcut⟩ := cut?_comment (by decide) (by decide) text hsingle
      rw [if_pos hsingle, hcut]
      exact ⟨.docstring '\'', before, rfl, Or.inr ⟨by decide, Or.inr hsingle⟩⟩
    · rw [if_neg hsingle]
      exact ⟨.code, ' ' :: text, rfl, Or.inl ⟨rfl, not_or.mpr ⟨hdouble, hsingle⟩⟩⟩

/-- A comment line has no code. It leaves open what its text leaves open. -/
theorem readLine_comment (style : CommentStyle) (text : List Char) :
    ∃ state, readLine style .code (style.marker ++ ' ' :: text) = (state, []) ∧
      state.IsLeftBy style text := by
  cases style with
  | slash => exact readSlash_comment text
  | slashAndHash =>
    obtain ⟨state, hread, hstate⟩ := readSlash_comment text
    refine ⟨state, ?_, hstate⟩
    change (readSlash .code ('/' :: '/' :: ' ' :: text)).map id dropHashLine = _
    rw [hread]
    rfl
  | hash =>
    refine ⟨.code, ?_, Or.inl ⟨rfl, not_false⟩⟩
    have hbegin : ¬ startsWith "=begin".toList ('#' :: ' ' :: text) = true := by
      rw [startsWith]
      exact Bool.false_ne_true
    change readHash .code ('#' :: ' ' :: text) = _
    rw [readHash, if_neg hbegin]
    exact congrArg _ (cutMarker_append (List.cons_ne_nil '#' []) (' ' :: text))
  | hashAndDocstring =>
    obtain ⟨state, rest, hopen, hstate⟩ := openDocstring_comment text
    refine ⟨state, ?_, hstate⟩
    change (openDocstring ('#' :: ' ' :: text)).map id (cutMarker ['#']) = _
    rw [hopen, Prod.map_apply, cutMarker_append (List.cons_ne_nil _ _), id]

end CommentState

theorem cutReturn_append_cons (before : List Char) (c : Char) (text : List Char) (hc : c ≠ '\r') :
    cutReturn (before ++ c :: text) = before ++ c :: cutReturn text := by
  cases text with
  | nil =>
    have hlast : ((before ++ [c]).getLast? == some '\r') = false := by simpa using hc
    rw [cutReturn, hlast, if_neg Bool.false_ne_true]
    rfl
  | cons d text =>
    have hlast : (before ++ c :: d :: text).getLast? = (d :: text).getLast? := by
      rw [List.getLast?_append, List.getLast?_cons_cons,
        List.getLast?_eq_some_getLast (List.cons_ne_nil d text), Option.some_or]
    rw [cutReturn, cutReturn, hlast]
    split
    · rw [List.dropLast_append_of_ne_nil (List.cons_ne_nil _ _),
        List.dropLast_cons_of_ne_nil (List.cons_ne_nil _ _)]
    · rfl

/-- The hit when a line is put in behind the first `count`. -/
def Hit.pastLine (count : Nat) (hit : Hit) : Hit :=
  if count < hit.line then { hit with line := hit.line + 1 } else hit

namespace Detector

variable {detector : Detector}

def marker : Detector → List Char
  | python | ruby => ['#']
  | javaScript | go | jvm | cSharp | php | rust | cFamily => ['/', '/']

private theorem marker_eq (detector : Detector) :
    detector.marker = detector.commentStyle.marker := by
  cases detector <;> rfl

theorem readLine_comment (detector : Detector) (text : List Char) :
    ∃ state, detector.readLine .clear (detector.marker ++ ' ' :: text) = (⟨state, false⟩, []) ∧
      state.IsLeftBy detector.commentStyle text := by
  obtain ⟨state, hread, hstate⟩ := CommentState.readLine_comment detector.commentStyle text
  refine ⟨state, ?_, hstate⟩
  rw [← marker_eq] at hread
  rw [readLine, ScanState.clear]
  dsimp only
  rw [hread]
  rfl

private theorem map_pastLine_hitsFrom (before after : List (List Char)) (state : ScanState) :
    (detector.hitsFrom .clear 0 before ++ detector.hitsFrom state before.length after).map
        (Hit.pastLine before.length) =
      detector.hitsFrom .clear 0 before ++ detector.hitsFrom state (before.length + 1) after := by
  rw [List.map_append, hitsFrom_add]
  congr 1
  · refine (List.map_congr_left ?_).trans (List.map_id _)
    intro hit hhit
    obtain ⟨-, hle, -⟩ := of_mem_hitsFrom hhit
    rw [Nat.zero_add] at hle
    exact if_neg (Nat.not_lt.mpr hle)
  · apply List.map_congr_left
    intro hit hhit
    exact if_pos (of_mem_hitsFrom hhit).1

private theorem scan_comment {above comment : List Char}
    (habove : above = [] ∨ above.getLast? = some '\n')
    (hclear : (detector.read above).state = .clear) (hcomment : '\n' ∉ comment)
    (below : List Char) :
    ∃ state, state.IsLeftBy detector.commentStyle (cutReturn comment) ∧
      detector.scan (String.ofList
          (above ++ (detector.marker ++ ' ' :: comment ++ '\n' :: below))) =
        detector.hitsFrom .clear 0 (lines above) ++
          detector.hitsFrom ⟨state, false⟩ ((lines above).length + 1) (lines below) := by
  obtain ⟨state, hread, hstate⟩ := readLine_comment detector (cutReturn comment)
  refine ⟨state, hstate, ?_⟩
  have hline : '\n' ∉ detector.marker ++ ' ' :: comment := by
    have hmarker : '\n' ∉ detector.marker := by cases detector <;> decide
    simp [hmarker, hcomment]
  rw [scan_eq_of_clear habove hclear, lines_cons hline,
    cutReturn_append_cons _ ' ' comment (by decide), hitsFrom, lineHits, hread]
  rfl

def sampleLine : Detector → List Char
  | python | jvm => "import a".toList
  | javaScript => "import 'a'".toList
  | go => "import \"a\"".toList
  | cSharp => "using a;".toList
  | php | rust => "use a;".toList
  | ruby => "require 'a'".toList
  | cFamily => "#include <a>".toList

private theorem hits_sampleLine (detector : Detector) :
    (detector.readLine .clear detector.sampleLine).2 ≠ [] := by
  cases detector <;> decide +kernel

private theorem hits_sampleLine_of_open (detector : Detector) :
    ∀ state ∈ detector.commentStyle.openStates,
      (detector.readLine ⟨state, false⟩ detector.sampleLine).2 = [] := by
  cases detector <;> decide

private theorem newline_notMem_sampleLine (detector : Detector) : '\n' ∉ detector.sampleLine := by
  cases detector <;> decide

private theorem cutReturn_sampleLine (detector : Detector) :
    cutReturn detector.sampleLine = detector.sampleLine := by
  cases detector <;> decide

private theorem hitsFrom_sampleLine (state : ScanState) (count : Nat) :
    detector.hitsFrom state count (lines (detector.sampleLine ++ ['\n'])) =
      detector.lineHits state count detector.sampleLine := by
  rw [lines_cons (newline_notMem_sampleLine detector), lines_nil, cutReturn_sampleLine, hitsFrom,
    hitsFrom, List.append_nil]

/-- A comment line behind a text that leaves nothing open changes nothing but line numbers, whatever
follows, just where its text leaves nothing open either. -/
theorem scan_comment_iff {above comment : List Char}
    (habove : above = [] ∨ above.getLast? = some '\n')
    (hclear : (detector.read above).state = .clear) (hcomment : '\n' ∉ comment) :
    (∀ below, detector.scan (String.ofList
        (above ++ (detector.marker ++ ' ' :: comment ++ '\n' :: below))) =
      (detector.scan (String.ofList (above ++ below))).map (Hit.pastLine (lines above).length)) ↔
    ¬ detector.commentStyle.LeavesOpen (cutReturn comment) := by
  constructor
  · -- A line with a reference on it tells an open state from the clear one.
    intro hsame hopen
    obtain ⟨state, hleft, hscan⟩ := scan_comment habove hclear hcomment
      (detector.sampleLine ++ ['\n'])
    have hstate : state ∈ detector.commentStyle.openStates :=
      hleft.elim (fun h => absurd hopen h.2) (·.1)
    have hlost := hsame (detector.sampleLine ++ ['\n'])
    rw [hscan, scan_eq_of_clear habove hclear, map_pastLine_hitsFrom, hitsFrom_sampleLine,
      hitsFrom_sampleLine, lineHits, hits_sampleLine_of_open detector state hstate, List.map_nil,
      List.append_cancel_left_eq, lineHits, List.nil_eq, List.map_eq_nil_iff] at hlost
    exact hits_sampleLine detector hlost
  · intro hclosed below
    obtain ⟨state, hleft, hscan⟩ := scan_comment habove hclear hcomment below
    obtain rfl : state = .code := hleft.elim (·.1) fun h => absurd h.2 hclosed
    rw [hscan, scan_eq_of_clear habove hclear, map_pastLine_hitsFrom]
    rfl

/-- A block that closes inside the comment is no exception. -/
theorem scan_comment_iff_closedBlock :
    (javaScript.read "import 'a'\n".toList).state = .clear ∧ '\n' ∉ "see /* b */ there".toList ∧
      ∀ below, javaScript.scan (String.ofList ("import 'a'\n".toList ++
          (javaScript.marker ++ ' ' :: "see /* b */ there".toList ++ '\n' :: below))) =
        (javaScript.scan (String.ofList ("import 'a'\n".toList ++ below))).map
          (Hit.pastLine 1) := by
  have hclear : (javaScript.read "import 'a'\n".toList).state = .clear := by decide +kernel
  have hclosed : ¬ CommentStyle.slash.LeavesOpen (cutReturn "see /* b */ there".toList) := by
    rintro ⟨before, inside, hopen, hnone⟩
    have hcut : cut? ['/', '*'] (cutReturn "see /* b */ there".toList) =
        some ("see ".toList, " b */ there".toList) := by decide
    obtain ⟨-, rfl⟩ := Prod.mk.inj (Option.some.inj (hcut.symm.trans hopen))
    exact absurd hnone (by decide)
  have hnewline : '\n' ∉ "see /* b */ there".toList := by decide
  exact ⟨hclear, hnewline, (scan_comment_iff (Or.inr (by decide)) hclear hnewline).mpr hclosed⟩

/-- A block comment that opens behind the marker of a line comment swallows the line below, and so
does a docstring. -/
theorem scan_comment_leavesOpen :
    ((javaScript.scan "import 'a'\n").map (Hit.pastLine 0) = [⟨2, "a", .imports⟩] ∧
      javaScript.scan "// /*\nimport 'a'\n" = []) ∧
    ((python.scan "import os\n").map (Hit.pastLine 0) = [⟨2, "os", .imports⟩] ∧
      python.scan "# '''\nimport os\n" = []) := by
  decide +kernel

end Detector

end RepoGraph
