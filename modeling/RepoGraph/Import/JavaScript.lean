import RepoGraph.Reference
/-!
# Imports of JavaScript and TypeScript

Static imports, re-exports, `require()` and dynamic `import()`. A statement that opens its braces
and does not close them is followed to the line with its `from` clause.
-/
namespace RepoGraph.Import.JavaScript
open Text

def fromStatement? (keyword code : List Char) : Option (List Char) := do
  let rest ← stripStart? keyword (skipBlanks code)
  let _ ← blanks? rest
  let isMark := fun c => isQuote c || c == '\x60'
  let (module, _) ← quoted? (rest.dropWhile (!isMark ·))
  let head ← stripEnd? "from".toList (cutBlanks (rest.takeWhile (!isMark ·)))
  if startsWord head.getLast? then some module else none

def bareImport? (code : List Char) : Option (List Char) := do
  let rest ← stripStart? "import".toList (skipBlanks code)
  let (module, _) ← quoted? (skipBlanks rest)
  some module

def statement? (code : List Char) : Option (List Char) :=
  (fromStatement? "import".toList code).or
    ((bareImport? code).or (fromStatement? "export".toList code))

def opensBraces : List Char → Bool
  | c :: rest => c == '\x7b' && !rest.contains '\x7d'
  | [] => false

def defaultName? (s : List Char) : Option (List Char) := do
  let inName := fun c => isWordChar c || c == '$'
  match s.takeWhile inName with
  | [] => none
  | _ => (stripStart? [','] (skipBlanks (s.dropWhile inName))).map skipBlanks

def opensList (s : List Char) : Bool := opensBraces s || (defaultName? s).any opensBraces

def opensStatement (code : List Char) : Bool :=
  let s := skipBlanks code
  ((keyword? "import".toList s).or (keyword? "export".toList s)).any fun list =>
    opensList list || (keyword? "type".toList list).any opensList

def fromClauseAt? (before : Option Char) (s : List Char) : Option (List Char × List Char) :=
  if startsWord before then
    (stripStart? "from".toList s).bind fun rest => quoted? (skipBlanks rest)
  else none

private theorem length_fromClauseAt? {before : Option Char} {s rest module : List Char}
    (h : fromClauseAt? before s = some (module, rest)) : rest.length < s.length := by
  unfold fromClauseAt? at h
  split at h
  · obtain ⟨after, hafter, h⟩ := Option.bind_eq_some_iff.1 h
    have := length_stripStart? hafter
    have := length_skipBlanks after
    have := length_quoted? h
    omega
  · simp at h

def fromClause? (code : List Char) : Option (List Char) :=
  (findAll fromClauseAt? length_fromClauseAt? none code).head?

def callAt? (function : List Char) (before : Option Char) (s : List Char) :
    Option (List Char × List Char) := do
  if startsWord before then
    let rest ← stripStart? function s
    let rest ← stripStart? ['('] (skipBlanks rest)
    let (module, rest) ← quoted? (skipBlanks rest)
    let rest ← stripStart? [')'] (skipBlanks rest)
    some (module, rest)
  else none

private theorem length_callAt? {function : List Char} {before : Option Char}
    {s rest module : List Char}
    (h : callAt? function before s = some (module, rest)) : rest.length < s.length := by
  unfold callAt? at h
  split at h
  · simp only [Option.bind_eq_bind, Option.bind_eq_some_iff, Prod.exists, Option.some.injEq,
      Prod.mk.injEq] at h
    obtain ⟨s₁, h₁, s₂, h₂, _, s₃, h₃, s₄, h₄, _, rfl⟩ := h
    have := length_stripStart? h₁
    have := length_skipBlanks s₁
    have := length_stripStart? h₂
    have := length_skipBlanks s₂
    have := length_quoted? h₃
    have := length_skipBlanks s₃
    have := length_stripStart? h₄
    omega
  · simp at h

def calls (function code : List Char) : List (List Char) :=
  findAll (callAt? function) length_callAt? none code

def readStatement (opened : Bool) (code : List Char) : Bool × List (List Char × ReferenceKind) :=
  let calls := (calls "require".toList code).map (·, ReferenceKind.requires) ++
    (calls "import".toList code).map (·, ReferenceKind.imports)
  match statement? code with
  | some module => (opened, (module, .imports) :: calls)
  | none => (opened || opensStatement code, calls)

def readLine (opened : Bool) (code : List Char) : Bool × List (List Char × ReferenceKind) :=
  if opened then
    match fromClause? code with
    | some module => (false, [(module, .imports)])
    | none => readStatement (!code.contains ';') code
  else readStatement false code

end RepoGraph.Import.JavaScript
