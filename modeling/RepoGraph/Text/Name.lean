import RepoGraph.Text.Split
import RepoGraph.Text.Word
/-!
# Names and quoted words

The small recognisers that import statements are read with. Each takes the text at its start and
gives what it read and the rest.
-/
namespace RepoGraph.Text

/-- A name: an ASCII letter or underscore and the word characters after it. -/
def name? : List Char → Option (List Char × List Char)
  | [] => none
  | c :: s =>
    if isNameStart c then
      some (c :: s.takeWhile isWordChar, s.dropWhile isWordChar)
    else none

/-- A name that also runs on over the characters that satisfy `more`. -/
def nameWith? (more : Char → Bool) : List Char → Option (List Char × List Char)
  | [] => none
  | c :: s =>
    if isNameStart c then
      let runsOn := fun d => isWordChar d || more d
      some (c :: s.takeWhile runsOn, s.dropWhile runsOn)
    else none

def keyword? (word s : List Char) : Option (List Char) := (stripStart? word s).bind blanks?

def isQuote (c : Char) : Bool := c == '\'' || c == '"'

/-- A nonempty word between two quotes, which need not be of one kind. -/
def quoted? : List Char → Option (List Char × List Char)
  | [] => none
  | q :: s =>
    if isQuote q then
      match s.takeWhile (!isQuote ·), s.dropWhile (!isQuote ·) with
      | c :: word, _ :: rest => some (c :: word, rest)
      | _, _ => none
    else none

theorem length_quoted? {s rest word : List Char} (h : quoted? s = some (word, rest)) :
    rest.length < s.length := by
  unfold quoted? at h
  split at h
  · simp at h
  · rename_i q s
    split at h
    · split at h
      · rename_i hd
        have := length_dropWhile_le (!isQuote ·) s
        grind
      · simp at h
    · simp at h

/-- Whether the character before a position leaves a word boundary in front of a word. -/
def startsWord : Option Char → Bool
  | none => true
  | some c => !isWordChar c

/-- What `read` finds in a text, from the left and without overlap. `read` is given the character
before its position, and passes over something whenever it finds something. After that there is no
character before the position, since what is found never ends in a word character. -/
def findAll (read : Option Char → List Char → Option (α × List Char))
    (advances : ∀ {before s found rest}, read before s = some (found, rest) →
      rest.length < s.length)
    (before : Option Char) : List Char → List α
  | [] => []
  | c :: s =>
    match h : read before (c :: s) with
    | some (found, rest) =>
      have : rest.length < s.length + 1 := advances h
      found :: findAll read advances none rest
    | none => findAll read advances (some c) s
termination_by s => s.length

end RepoGraph.Text
