import RepoGraph.Proofs.Source.LineComment

/-!
# Block comments

What stands in block comments may be blanked out without a change to what a scan finds, on lines on
which the reader sees every block. It looks for one block on a line that starts outside of blocks,
wherever that opens, and does not look behind it: it misses a block that opens behind another one,
and takes one for open that a line comment mentions.
-/

namespace RepoGraph

open Text

/-- Where a character of a text stands. -/
inductive CommentRegion where
  /-- In code, behind this character. The start of a text counts as the start of a line. -/
  | code (before : Char)
  | lineComment
  /-- On the second character of a mark that opens a block comment. -/
  | opening
  | block
  /-- On the second character of a mark that closes a block comment. -/
  | closing
  deriving DecidableEq, Repr

namespace CommentRegion

def opensLine (before : Char) : Bool := isBlank before || before == ';'

/-- The region behind a character with another one ahead, and what the character is blanked to. -/
def step (c : Char) (ahead : Option Char) : CommentRegion → CommentRegion × Char
  | code before =>
    if c = '/' ∧ ahead = some '*' then (opening, c)
    else if c = '/' ∧ ahead = some '/' ∧ opensLine before then (lineComment, c)
    else (code c, c)
  | lineComment => (if c = '\n' then code c else lineComment, c)
  | opening => (block, c)
  | block =>
    if c = '*' ∧ ahead = some '/' then (closing, c)
    else (block, if c = '\n' ∨ c = '\r' ∧ ahead = some '\n' then c else ' ')
  | closing => (code c, c)

def after (region : CommentRegion) : List Char → CommentRegion
  | [] => region
  | c :: s => (region.step c s.head?).1.after s

/-- A text with a blank for every character in a block comment, line breaks aside. -/
def blankFrom (region : CommentRegion) : List Char → List Char
  | [] => []
  | c :: s => (region.step c s.head?).2 :: (region.step c s.head?).1.blankFrom s

def ofState : CommentState → CommentRegion
  | .block => block
  | _ => code '\n'

def state : CommentRegion → CommentState
  | opening | block => .block
  | _ => .code

/-- The text with its block comments blanked out. -/
def blank (content : String) : String := String.ofList ((code '\n').blankFrom content.toList)

private theorem step_ahead_eq {c : Char} {ahead ahead' : Option Char} (hstar : ahead ≠ some '*')
    (hslash : ahead ≠ some '/') (hstar' : ahead' ≠ some '*') (hslash' : ahead' ≠ some '/')
    (hbreak : c = '\r' → (ahead = some '\n' ↔ ahead' = some '\n')) (region : CommentRegion) :
    region.step c ahead = region.step c ahead' := by
  cases region with
  | code before => simp only [step, hstar, hslash, hstar', hslash', and_false, false_and]
  | block =>
    have hsame : (c = '\n' ∨ c = '\r' ∧ ahead = some '\n') ↔
        (c = '\n' ∨ c = '\r' ∧ ahead' = some '\n') := by
      constructor
      · rintro (h | ⟨hc, h⟩)
        · exact Or.inl h
        · exact Or.inr ⟨hc, (hbreak hc).mp h⟩
      · rintro (h | ⟨hc, h⟩)
        · exact Or.inl h
        · exact Or.inr ⟨hc, (hbreak hc).mpr h⟩
    simp only [step, hslash, hslash', and_false, if_false, hsame]
  | _ => rfl

private theorem blankFrom_append {s t : List Char} (hstar : t.head? ≠ some '*')
    (hslash : t.head? ≠ some '/') (hbreak : t.head? = some '\n' → s.getLast? ≠ some '\r')
    (region : CommentRegion) :
    region.blankFrom (s ++ t) = region.blankFrom s ++ (region.after s).blankFrom t := by
  induction s generalizing region with
  | nil => rfl
  | cons c s ih =>
    -- No mark goes over the end of the first text.
    have hstep : region.step c (s ++ t).head? = region.step c s.head? := by
      cases s with
      | nil =>
        apply step_ahead_eq hstar hslash (by simp) (by simp)
        rintro rfl
        have hline : t.head? ≠ some '\n' := fun h => hbreak h rfl
        simp [hline]
      | cons d s => rfl
    have hrest : t.head? = some '\n' → s.getLast? ≠ some '\r' := by
      intro h hlast
      apply hbreak h
      rw [List.getLast?_cons, hlast]
      rfl
    rw [List.cons_append, blankFrom, hstep, ih hrest, blankFrom, after, List.cons_append]

private theorem blankFrom_newline (region : CommentRegion) (s : List Char) :
    region.blankFrom ('\n' :: s) = '\n' :: (ofState region.state).blankFrom s := by
  cases region with
  | code before => rfl
  | lineComment => rfl
  | opening => rfl
  | block => rfl
  | closing => rfl

private theorem blankFrom_return (region : CommentRegion) (s : List Char) :
    region.blankFrom ('\r' :: '\n' :: s) = '\r' :: '\n' :: (ofState region.state).blankFrom s := by
  cases region with
  | code before => rfl
  | lineComment => rfl
  | opening => rfl
  | block => rfl
  | closing => rfl

private theorem step_char (region : CommentRegion) (c : Char) (ahead : Option Char) :
    (region.step c ahead).2 = c ∨ (region.step c ahead).2 = ' ' := by
  cases region with
  | code before =>
    left
    rw [step]
    split
    · rfl
    · split <;> rfl
  | block =>
    rw [step]
    split
    · exact Or.inl rfl
    · dsimp only
      split
      · exact Or.inl rfl
      · exact Or.inr rfl
  | _ => exact Or.inl rfl

private theorem newline_notMem_blankFrom {s : List Char} (h : '\n' ∉ s) (region : CommentRegion) :
    '\n' ∉ region.blankFrom s := by
  induction s generalizing region with
  | nil => exact h
  | cons c s ih =>
    obtain ⟨hc, hs⟩ := not_or.mp (mt List.mem_cons.mpr h)
    rw [blankFrom, List.mem_cons, not_or]
    refine ⟨?_, ih hs _⟩
    rcases region.step_char c s.head? with hchar | hchar
    · rwa [hchar]
    · rw [hchar]
      decide

private theorem getLast?_blankFrom_ne {s : List Char} (h : s.getLast? ≠ some '\r')
    (region : CommentRegion) : (region.blankFrom s).getLast? ≠ some '\r' := by
  induction s generalizing region with
  | nil => exact h
  | cons c s ih =>
    rw [blankFrom]
    cases s with
    | nil =>
      intro hlast
      rcases region.step_char c none with hchar | hchar
      · exact h (congrArg some (hchar.symm.trans (Option.some.inj hlast)))
      · exact absurd (hchar.symm.trans (Option.some.inj hlast)) (by decide)
    | cons d s =>
      rw [List.getLast?_cons_cons] at h
      have hrest := ih h (region.step c (some d)).1
      rw [blankFrom] at hrest ⊢
      rw [List.getLast?_cons_cons]
      exact hrest

def lineStarts (state : CommentState) : List (List Char) → List (CommentState × List Char)
  | [] => []
  | line :: lines => (state, line) :: lineStarts ((ofState state).after line).state lines

def blankLines (state : CommentState) (lines : List (List Char)) : List (List Char) :=
  (lineStarts state lines).map fun start => (ofState start.1).blankFrom start.2

private theorem blankLines_cons (state : CommentState) (line : List Char)
    (lines : List (List Char)) :
    blankLines state (line :: lines) =
      (ofState state).blankFrom line :: blankLines ((ofState state).after line).state lines := rfl

private theorem lines_blankFrom (state : CommentState) (content : List Char) :
    lines ((ofState state).blankFrom content) = blankLines state (lines content) := by
  by_cases hmem : '\n' ∈ content
  · obtain ⟨line, rest, rfl, hline⟩ := List.eq_append_cons_of_mem hmem
    have hshorter : rest.length < (line ++ '\n' :: rest).length := by
      rw [List.length_append, List.length_cons]
      omega
    by_cases hreturn : line.getLast? = some '\r'
    · obtain ⟨front, rfl⟩ := List.getLast?_eq_some_iff.mp hreturn
      have hfront : '\n' ∉ front := fun h => hline (List.mem_append_left _ h)
      have hblank : '\n' ∉ (ofState state).blankFrom front ++ ['\r'] := by
        simp [newline_notMem_blankFrom hfront]
      have hcut (s : List Char) : cutReturn (s ++ ['\r']) = s := by simp [cutReturn]
      rw [lines_cons hline, hcut, blankLines_cons, ← lines_blankFrom _ rest, List.append_assoc,
        List.singleton_append, blankFrom_append (by simp) (by simp) (by simp), blankFrom_return,
        ← List.singleton_append, ← List.append_assoc, lines_cons hblank, hcut]
    · have hcut {s : List Char} (h : s.getLast? ≠ some '\r') : cutReturn s = s := by
        simp [cutReturn, h]
      rw [lines_cons hline, hcut hreturn, blankLines_cons, ← lines_blankFrom _ rest,
        blankFrom_append (by simp) (by simp) (fun _ => hreturn), blankFrom_newline,
        lines_cons (newline_notMem_blankFrom hline _), hcut (getLast?_blankFrom_ne hreturn _)]
  · cases content with
    | nil => rfl
    | cons c s =>
      have hlines {s : List Char} (h : '\n' ∉ s) (hne : s ≠ []) : lines s = [s] := by
        simp [lines, splitOn_of_notMem h, hne]
      rw [hlines hmem (List.cons_ne_nil c s), hlines (newline_notMem_blankFrom hmem _)]
      · rfl
      · rw [blankFrom]
        exact List.cons_ne_nil _ _
termination_by content.length

private theorem blankFrom_lineComment {s : List Char} (h : '\n' ∉ s) :
    lineComment.blankFrom s = s ∧ lineComment.after s = lineComment := by
  induction s with
  | nil => exact ⟨rfl, rfl⟩
  | cons c s ih =>
    obtain ⟨hc, hs⟩ := not_or.mp (mt List.mem_cons.mpr h)
    have hstep : lineComment.step c s.head? = (lineComment, c) := by
      rw [step, if_neg (Ne.symm hc)]
    obtain ⟨hblank, hafter⟩ := ih hs
    rw [blankFrom, after, hstep]
    exact ⟨congrArg (c :: ·) hblank, hafter⟩

private theorem head?_blankFrom_code (before : Char) (s : List Char) :
    ((code before).blankFrom s).head? = s.head? := by
  cases s with
  | nil => rfl
  | cons c s =>
    rw [blankFrom, step, List.head?_cons, List.head?_cons]
    split
    · rfl
    · split <;> rfl

private theorem startsWith_pair (a b c : Char) (s : List Char) :
    startsWith [a, b] (c :: s) = decide (c = a ∧ s.head? = some b) := by
  cases s with
  | nil => simp [startsWith, stripStart?]
  | cons d s =>
    rw [startsWith, stripStart?, stripStart?, stripStart?]
    by_cases hc : c = a
    · by_cases hd : d = b
      · simp [hc, hd]
      · simp [hc, hd, Ne.symm hd]
    · simp [hc, Ne.symm hc]

/-- Outside of blocks either nothing is blanked and no block is open at the end, a line comment being
open before any mark that opens a block, or a block opens at the first of these marks. -/
theorem blankFrom_code {s : List Char} (h : '\n' ∉ s) (before : Char) :
    ((code before).blankFrom s = s ∧ ((code before).after s).state = .code ∧
        ∀ parts ∈ cut? ['/', '*'] s, allBlank parts.1 = false) ∨
      ∃ front inside, cut? ['/', '*'] s = some (front, inside) ∧
        cut? ['/', '*'] ((code before).blankFrom s) = some (front, block.blankFrom inside) ∧
        (code before).after s = block.after inside ∧ '\n' ∉ inside := by
  induction s generalizing before with
  | nil => exact Or.inl ⟨rfl, rfl, fun _ hparts => nomatch hparts⟩
  | cons c s ih =>
    obtain ⟨-, hs⟩ := not_or.mp (mt List.mem_cons.mpr h)
    by_cases hopen : c = '/' ∧ s.head? = some '*'
    · obtain ⟨rfl, hhead⟩ := hopen
      obtain ⟨inside, rfl⟩ := List.head?_eq_some_iff.mp hhead
      right
      exact ⟨[], inside, rfl, rfl, rfl, fun hmem => hs (List.mem_cons_of_mem _ hmem)⟩
    · have hstart : startsWith ['/', '*'] (c :: s) = false := by
        rw [startsWith_pair]
        exact decide_eq_false hopen
      by_cases hline : c = '/' ∧ s.head? = some '/' ∧ opensLine before = true
      · have hstep : (code before).step c s.head? = (lineComment, c) := by
          rw [step, if_neg hopen, if_pos hline]
        obtain ⟨hblank, hafter⟩ := blankFrom_lineComment hs
        left
        rw [blankFrom, after, hstep, cut?_cons hstart]
        refine ⟨congrArg (c :: ·) hblank, congrArg state hafter, ?_⟩
        intro parts hparts
        obtain ⟨rest, -, rfl⟩ := Option.map_eq_some_iff.mp hparts
        rw [hline.1]
        rfl
      · have hstep : (code before).step c s.head? = (code c, c) := by
          rw [step, if_neg hopen, if_neg hline]
        rw [blankFrom, after, hstep]
        dsimp only
        rcases ih hs c with ⟨hblank, hafter, hfront⟩ |
          ⟨front, inside, hcut, hcutBlank, hafter, hinside⟩
        · left
          rw [cut?_cons hstart]
          refine ⟨congrArg (c :: ·) hblank, hafter, ?_⟩
          intro parts hparts
          obtain ⟨rest, hrest, rfl⟩ := Option.map_eq_some_iff.mp hparts
          have hblankRest : rest.1.all isBlank = false := hfront rest hrest
          rw [allBlank, List.all_cons, hblankRest, Bool.and_false]
        · have hstartBlank : startsWith ['/', '*'] (c :: (code c).blankFrom s) = false := by
            rw [startsWith_pair, head?_blankFrom_code]
            exact decide_eq_false hopen
          right
          refine ⟨c :: front, inside, ?_, ?_, hafter, hinside⟩
          · rw [cut?_cons hstart, hcut]
            rfl
          · rw [cut?_cons hstartBlank, hcutBlank]
            rfl

/-- In a block everything is blanked up to the first mark that closes it. -/
theorem blankFrom_block {s : List Char} (h : '\n' ∉ s) :
    (cut? ['*', '/'] s = none ∧ cut? ['*', '/'] (block.blankFrom s) = none ∧
        block.after s = block) ∨
      ∃ within within' behind, cut? ['*', '/'] s = some (within, behind) ∧
        cut? ['*', '/'] (block.blankFrom s) = some (within', (code '/').blankFrom behind) ∧
        block.after s = (code '/').after behind ∧ '\n' ∉ behind := by
  induction s with
  | nil => exact Or.inl ⟨rfl, rfl, rfl⟩
  | cons c s ih =>
    obtain ⟨hc, hs⟩ := not_or.mp (mt List.mem_cons.mpr h)
    by_cases hclose : c = '*' ∧ s.head? = some '/'
    · obtain ⟨rfl, hhead⟩ := hclose
      obtain ⟨behind, rfl⟩ := List.head?_eq_some_iff.mp hhead
      right
      exact ⟨[], [], behind, rfl, rfl, rfl, fun hmem => hs (List.mem_cons_of_mem _ hmem)⟩
    · have hstart : startsWith ['*', '/'] (c :: s) = false := by
        rw [startsWith_pair]
        exact decide_eq_false hclose
      have hbreak : ¬ (c = '\n' ∨ c = '\r' ∧ s.head? = some '\n') := by
        rintro (rfl | ⟨-, hhead⟩)
        · exact hc rfl
        · exact hs (List.mem_of_mem_head? hhead)
      have hstep : block.step c s.head? = (block, ' ') := by
        rw [step, if_neg hclose, if_neg hbreak]
      have hstartBlank : startsWith ['*', '/'] (' ' :: block.blankFrom s) = false := by
        rw [startsWith_pair]
        exact decide_eq_false (by simp)
      rw [blankFrom, after, hstep]
      dsimp only
      rw [cut?_cons hstart, cut?_cons hstartBlank]
      rcases ih hs with ⟨hcut, hcutBlank, hafter⟩ |
        ⟨within, within', behind, hcut, hcutBlank, hafter, hbehind⟩
      · left
        rw [hcut, hcutBlank]
        exact ⟨rfl, rfl, hafter⟩
      · right
        rw [hcut, hcutBlank]
        exact ⟨c :: within, ' ' :: within', behind, rfl, rfl, hafter, hbehind⟩

/-- Whether the reader sees the blocks of a stretch that starts outside of them. If the first mark
that opens a block is not closed, it must not stand in a line comment. If it is closed, no other
block may be open at the end, and where no code stands before it, none may hold text that is read. -/
def seesBlocks (before : Char) (stretch : List Char) : Bool :=
  match cut? ['/', '*'] stretch with
  | none => true
  | some (front, inside) =>
    match cut? ['*', '/'] inside with
    | none => ((code before).after stretch).state = .block
    | some (_, behind) => ((code before).after stretch).state = .code &&
        (!allBlank front || CommentState.cutMarker ['/', '/'] ((code '/').blankFrom behind) =
          CommentState.cutMarker ['/', '/'] behind)

def seesLine (state : CommentState) (line : List Char) : Bool :=
  match state with
  | .code => seesBlocks '\n' line
  | _ =>
    match cut? ['*', '/'] line with
    | none => true
    | some (_, behind) => seesBlocks '/' behind

open CommentState in
private theorem seesBlocks_iff {before : Char} {s : List Char} (hs : '\n' ∉ s) :
    seesBlocks before s = true ↔
      (openBlock ((code before).blankFrom s)).map id (cutMarker ['/', '/']) =
          (openBlock s).map id (cutMarker ['/', '/']) ∧
        (openBlock s).1 = ((code before).after s).state := by
  rw [seesBlocks]
  rcases blankFrom_code hs before with ⟨hblank, hstate, hfront⟩ |
    ⟨front, inside, hcut, hcutBlank, hafter, hinside⟩
  · rw [hblank, hstate, openBlock]
    cases hcut : cut? ['/', '*'] s with
    | none => simp
    | some parts =>
      obtain ⟨front, inside⟩ := parts
      have hcode : allBlank front = false := hfront (front, inside) hcut
      cases hclose : cut? ['*', '/'] inside with
      | none => simp [hclose]
      | some rest => simp [hclose, hcode]
  · rw [openBlock, openBlock, hcut, hcutBlank, hafter]
    rcases blankFrom_block hinside with ⟨hclose, hcloseBlank, hblock⟩ |
      ⟨within, within', behind, hclose, hcloseBlank, hbehind, -⟩
    · simp [hclose, hcloseBlank, hblock, state]
    · simp only [hclose, hcloseBlank, hbehind]
      have hcode : ((code '/').after behind).state = .code ↔
          CommentState.code = ((code '/').after behind).state := eq_comm
      cases hfront : allBlank front with
      | false => simp [hcode]
      | true => simp [hcode, and_comm]

private theorem state_eq (region : CommentRegion) :
    region.state = .code ∨ region.state = .block := by
  cases region with
  | opening => exact Or.inr rfl
  | block => exact Or.inr rfl
  | _ => exact Or.inl rfl

open CommentState in
/-- The reader sees the blocks of a line just where the line reads as it does blanked out, and leaves
open what is open at its end. -/
theorem seesLine_iff {state : CommentState} (hstate : state = .code ∨ state = .block)
    {line : List Char} (hline : '\n' ∉ line) :
    seesLine state line = true ↔
      readSlash state ((ofState state).blankFrom line) = readSlash state line ∧
        (readSlash state line).1 = ((ofState state).after line).state := by
  rcases hstate with rfl | rfl
  · exact seesBlocks_iff hline
  · change _ ↔ readSlash .block (block.blankFrom line) = _ ∧ _ = (block.after line).state
    rcases blankFrom_block hline with ⟨hclose, hcloseBlank, hblock⟩ |
      ⟨within, within', behind, hclose, hcloseBlank, hbehind, hnewline⟩
    · simp [seesLine, readSlash, hclose, hcloseBlank, hblock, CommentRegion.state]
    · simp only [seesLine, readSlash, hclose, hcloseBlank, hbehind]
      exact seesBlocks_iff hnewline

end CommentRegion

namespace Detector

open CommentRegion

variable {detector : Detector}

private theorem readLine_blankFrom (hslash : detector.commentStyle = .slash) {state : CommentState}
    (hstate : state = .code ∨ state = .block) {line : List Char} (hline : '\n' ∉ line)
    (hsees : seesLine state line = true) (inImport : Bool) :
    detector.readLine ⟨state, inImport⟩ ((ofState state).blankFrom line) =
        detector.readLine ⟨state, inImport⟩ line ∧
      (detector.readLine ⟨state, inImport⟩ line).1.comment =
        ((ofState state).after line).state := by
  obtain ⟨hread, hafter⟩ := (seesLine_iff hstate hline).mp hsees
  have hstyle (t : List Char) : state.readLine detector.commentStyle t = state.readSlash t := by
    rw [hslash]
    rfl
  constructor
  · rw [readLine, readLine]
    dsimp only
    rw [hstyle, hstyle, hread]
  · rw [readLine]
    dsimp only
    rw [hstyle, ← hafter]
    split <;> rfl

private theorem hitsFrom_blankLines (hslash : detector.commentStyle = .slash) {state : CommentState}
    (hstate : state = .code ∨ state = .block) {lines : List (List Char)}
    (hlines : ∀ line ∈ lines, '\n' ∉ line)
    (hsees : ∀ start ∈ lineStarts state lines, seesLine start.1 start.2 = true)
    (inImport : Bool) (count : Nat) :
    detector.hitsFrom ⟨state, inImport⟩ count (blankLines state lines) =
      detector.hitsFrom ⟨state, inImport⟩ count lines := by
  induction lines generalizing state inImport count with
  | nil => rfl
  | cons line lines ih =>
    obtain ⟨hline, hlines⟩ := List.forall_mem_cons.mp hlines
    obtain ⟨hfirst, hrest⟩ := List.forall_mem_cons.mp hsees
    obtain ⟨hread, hafter⟩ := readLine_blankFrom hslash hstate hline hfirst inImport
    obtain ⟨stillImport, hnext⟩ : ∃ stillImport, (detector.readLine ⟨state, inImport⟩ line).1 =
        ⟨((ofState state).after line).state, stillImport⟩ := by
      rw [← hafter]
      exact ⟨_, rfl⟩
    rw [blankLines_cons, hitsFrom, hitsFrom, lineHits, lineHits, hread, hnext,
      ih (state_eq _) hlines hrest]

/-- Blanking the block comments of a text changes nothing that is found in it, if the reader sees
the blocks of each line. -/
theorem scan_blank (hslash : detector.commentStyle = .slash) {content : String}
    (hsees : ∀ start ∈ lineStarts .code (lines content.toList), seesLine start.1 start.2 = true) :
    detector.scan (blank content) = detector.scan content := by
  have hlines : lines (blank content).toList = blankLines .code (lines content.toList) := by
    rw [blank, String.toList_ofList]
    exact lines_blankFrom .code content.toList
  rw [scan_eq, scan_eq, hlines]
  exact hitsFrom_blankLines hslash (Or.inl rfl) (fun _ hline => newline_notMem_of_mem_lines hline)
    hsees false 0

/-- Blocks over several lines, two of them on one line, and one that a line comment holds. -/
theorem scan_blank_manyBlocks :
    javaScript.commentStyle = .slash ∧
      (∀ start ∈ lineStarts .code
          (lines "f() /* import 'a'\n b */ import 'c' // /* d */\nx /* y */ /* z */\n".toList),
        seesLine start.1 start.2 = true) ∧
      javaScript.scan (blank
          "f() /* import 'a'\n b */ import 'c' // /* d */\nx /* y */ /* z */\n") =
        [⟨2, "c", .imports⟩] := by
  have hsees : ∀ start ∈ lineStarts .code
      (lines "f() /* import 'a'\n b */ import 'c' // /* d */\nx /* y */ /* z */\n".toList),
      seesLine start.1 start.2 = true := by
    decide +kernel
  refine ⟨rfl, hsees, (scan_blank rfl hsees).trans ?_⟩
  decide +kernel

/-- The text of a block that opens behind another one is read as code: on its line if code stands
between the two only, on the lines below if it is still open at the end of its line. A mark in a
line comment opens a block for the reader, which the next mark that opens one then closes. -/
theorem scan_reads_hiddenBlocks :
    (javaScript.scan (blank "f() /* a */ /*\nimport 'b'\n*/\n") = [] ∧
      javaScript.scan "f() /* a */ /*\nimport 'b'\n*/\n" = [⟨2, "b", .imports⟩]) ∧
    (javaScript.scan (blank "/* a */ f() /* require('b') */\n") = [] ∧
      javaScript.scan "/* a */ f() /* require('b') */\n" = [⟨1, "b", .requires⟩]) ∧
    (javaScript.scan (blank "// /*\n/*/ import 'a'\n*/\n") = [] ∧
      javaScript.scan "// /*\n/*/ import 'a'\n*/\n" = [⟨2, "a", .imports⟩]) := by
  decide +kernel

end Detector

end RepoGraph
