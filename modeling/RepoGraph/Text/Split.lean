import RepoGraph.Text.Blank
/-!
# Cutting a text into pieces

Splitting at separators, at the first occurrence of a pattern, and into lines.
-/
namespace RepoGraph.Text

def splitWhen (p : Char → Bool) (s : List Char) : List (List Char) :=
  s.foldr (fun c pieces =>
    if p c then [] :: pieces
    else match pieces with
      | [] => [[c]]
      | piece :: rest => (c :: piece) :: rest) [[]]

def splitOn (sep : Char) (s : List Char) : List (List Char) := splitWhen (· == sep) s

def words (s : List Char) : List (List Char) := (splitWhen isBlank s).filter (!·.isEmpty)

def stripStart? : List Char → List Char → Option (List Char)
  | [], s => some s
  | _ :: _, [] => none
  | p :: pre, c :: s => if p == c then stripStart? pre s else none

theorem length_stripStart? {pre s rest : List Char} (h : stripStart? pre s = some rest) :
    rest.length + pre.length = s.length := by
  induction pre generalizing s with
  | nil => simp_all [stripStart?]
  | cons p pre ih =>
    cases s with
    | nil => simp [stripStart?] at h
    | cons c s =>
      simp only [stripStart?] at h
      split at h
      · have := ih h
        simp only [List.length_cons]
        omega
      · simp at h

theorem length_dropWhile_le (p : Char → Bool) (s : List Char) :
    (s.dropWhile p).length ≤ s.length :=
  (List.dropWhile_sublist p (l := s)).length_le

theorem length_dropWhile_lt {p : Char → Bool} {s : List Char} (h : s.takeWhile p ≠ []) :
    (s.dropWhile p).length < s.length := by
  have hlen := congrArg List.length (List.takeWhile_append_dropWhile (p := p) (l := s))
  have := List.length_pos_iff.2 h
  rw [List.length_append] at hlen
  omega

def stripEnd? (post s : List Char) : Option (List Char) :=
  (stripStart? post.reverse s.reverse).map List.reverse

def startsWith (pre s : List Char) : Bool := (stripStart? pre s).isSome

def endsWith (post s : List Char) : Bool := (stripEnd? post s).isSome

/-- The parts of a text before and after the first occurrence of `pattern`; `seen` holds the
characters already passed, last first. -/
def cutFrom? (pattern : List Char) (seen : List Char) : List Char → Option (List Char × List Char)
  | [] => match pattern with
    | [] => some (seen.reverse, [])
    | _ :: _ => none
  | c :: s => match stripStart? pattern (c :: s) with
    | some rest => some (seen.reverse, rest)
    | none => cutFrom? pattern (c :: seen) s

/-- The parts of a text before and after the first occurrence of `pattern`. -/
def cut? (pattern s : List Char) : Option (List Char × List Char) := cutFrom? pattern [] s

/-- The pieces of a text between the occurrences of a nonempty pattern, found from the left without
overlap, when the first `skip` characters belong to an occurrence already passed; `piece` holds the
characters of the piece being read, last first. -/
def splitFrom (sep piece : List Char) : Nat → List Char → List (List Char)
  | _, [] => [piece.reverse]
  | skip + 1, _ :: s => splitFrom sep piece skip s
  | 0, c :: s =>
    if startsWith sep (c :: s) then piece.reverse :: splitFrom sep [] (sep.length - 1) s
    else splitFrom sep (c :: piece) 0 s

def splitOnText (sep s : List Char) : List (List Char) := splitFrom sep [] 0 s

/-- The number of occurrences of a nonempty pattern, counted from the left without overlap, when
the first `skip` characters belong to an occurrence already counted. -/
def countFrom (pattern : List Char) (count : Nat) : Nat → List Char → Nat
  | _, [] => count
  | skip + 1, _ :: s => countFrom pattern count skip s
  | 0, c :: s =>
    if startsWith pattern (c :: s) then countFrom pattern (count + 1) (pattern.length - 1) s
    else countFrom pattern count 0 s

/-- The number of occurrences of a nonempty pattern, counted from the left without overlap. -/
def occurrences (pattern s : List Char) : Nat := countFrom pattern 0 0 s

/-- A terminated line without the carriage return that may stand before its line feed. -/
def cutReturn (line : List Char) : List Char :=
  if line.getLast? == some '\r' then line.dropLast else line

/-- The lines of a text. A line ends with a line feed, or a carriage return and a line feed; the
text after the last line feed is a line unless it is empty. -/
def lines (s : List Char) : List (List Char) :=
  let pieces := splitOn '\n' s
  pieces.dropLast.map cutReturn ++ (pieces.getLast?.toList.filter (!·.isEmpty))

def joinWith (sep : List Char) (pieces : List (List Char)) : List Char :=
  sep.intercalate pieces

def cutEndWhile (p : Char → Bool) (s : List Char) : List Char := (s.reverse.dropWhile p).reverse

def cutLast? (sep : Char) (s : List Char) : Option (List Char × List Char) :=
  match s.reverse.dropWhile (· != sep) with
  | [] => none
  | _ :: before => some (before.reverse, (s.reverse.takeWhile (· != sep)).reverse)

theorem length_cutLast? {sep : Char} {s before after : List Char}
    (h : cutLast? sep s = some (before, after)) : before.length < s.length := by
  unfold cutLast? at h
  split at h
  · simp at h
  · rename_i c rest hrest
    simp only [Option.some.injEq, Prod.mk.injEq] at h
    have hlen := congrArg List.length
      (List.takeWhile_append_dropWhile (p := (· != sep)) (l := s.reverse))
    rw [List.length_append, hrest, List.length_cons, List.length_reverse] at hlen
    rw [← h.1, List.length_reverse]
    omega

def pieces (sep : Char) (s : String) : List String := (splitOn sep s.toList).map String.ofList

end RepoGraph.Text
