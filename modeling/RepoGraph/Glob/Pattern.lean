/-!
# Glob patterns

`?` stands for one byte, `*` for any bytes, `[a-z]` and `[!a-z]` for one byte of a class or outside
it, `{a,b}` for a choice, and `\` takes the next character as it is. `**` between slashes, and at
either end, stands for any directories.
-/
namespace RepoGraph

/-- The variants of the pattern language. -/
structure GlobRules where
  /-- Whether `?` and `*` stop at a slash. -/
  keepsSlashes : Bool := false
  /-- Whether a bracket that is never closed stands for itself. -/
  allowsOpenClass : Bool := false
  deriving DecidableEq, Repr

inductive GlobToken where
  | literal (c : Char)
  | anyOne
  | anyRun
  /-- `**/` at the start: any directories, or none. -/
  | leadingDirs
  /-- `/**` at the end: everything below. -/
  | trailingDirs
  /-- `/**/` in between: any directories, or none. -/
  | innerDirs
  | oneOf (negated : Bool) (ranges : List (Char × Char))
  | choice (branches : List (List GlobToken))

inductive GlobFault where
  | unclosedClass
  | invalidRange (low high : Char)
  | unopenedChoice
  | unclosedChoice
  | danglingEscape
  deriving DecidableEq, Repr

namespace GlobFault

def message : GlobFault → String
  | unclosedClass => "unclosed character class; missing ']'"
  | invalidRange low high =>
    "invalid range; '" ++ low.toString ++ "' > '" ++ high.toString ++ "'"
  | unopenedChoice =>
    "unopened alternate group; missing '\x7b' (maybe escape '\x7d' with '[\x7d]'?)"
  | unclosedChoice =>
    "unclosed alternate group; missing '\x7d' (maybe escape '\x7b' with '[\x7b]'?)"
  | danglingEscape => "dangling '\\'"

end GlobFault

structure ClassReading where
  ranges : List (Char × Char) := []
  inRange : Bool := false
  deriving DecidableEq, Repr

namespace ClassReading

def next (reading : ClassReading) (c : Char) : Except GlobFault ClassReading :=
  match reading.ranges, reading.inRange with
  | (low, _) :: rest, true =>
    if c < low then .error (.invalidRange low c) else .ok ⟨(low, c) :: rest, false⟩
  | ranges, _ =>
    if c = '-' ∧ ranges ≠ [] then .ok ⟨ranges, true⟩ else .ok ⟨(c, c) :: ranges, false⟩

/-- The ranges of a complete class; a dash at its end stands for itself. -/
def finish (reading : ClassReading) : List (Char × Char) :=
  ((if reading.inRange then [('-', '-')] else []) ++ reading.ranges).reverse

/-- The rest of a class: its ranges, and the text after the closing bracket. A closing bracket that
comes first stands for itself. -/
def rest (reading : ClassReading) : List Char →
    Except GlobFault (List (Char × Char) × List Char)
  | [] => .error .unclosedClass
  | c :: s =>
    if c = ']' ∧ reading.ranges ≠ [] then .ok (reading.finish, s)
    else match reading.next c with
      | .ok reading => rest reading s
      | .error fault => .error fault

private theorem length_rest {reading : ClassReading} {s after : List Char}
    {ranges : List (Char × Char)}
    (h : reading.rest s = .ok (ranges, after)) : after.length < s.length := by
  induction s generalizing reading with
  | nil => simp [rest] at h
  | cons c s ih =>
    simp only [rest] at h
    split at h
    · grind
    · split at h
      · have := ih h
        simp only [List.length_cons]
        omega
      · simp at h

end ClassReading

def readNegation : List Char → Bool × List Char
  | '!' :: s => (true, s)
  | '^' :: s => (true, s)
  | s => (false, s)

def readClass (s : List Char) : Except GlobFault (GlobToken × List Char) :=
  match ClassReading.rest {} (readNegation s).2 with
  | .ok (ranges, rest) => .ok (.oneOf (readNegation s).1 ranges, rest)
  | .error fault => .error fault

private theorem length_readNegation (s : List Char) : (readNegation s).2.length ≤ s.length := by
  unfold readNegation
  split <;> simp

private theorem length_readClass {s rest : List Char} {token : GlobToken}
    (h : readClass s = .ok (token, rest)) : rest.length < s.length := by
  have := length_readNegation s
  unfold readClass at h
  split at h
  · rename_i hr
    have := ClassReading.length_rest hr
    grind
  · simp at h

structure GlobReading where
  current : List GlobToken := []
  /-- For each open choice, innermost first: its complete branches, last first, and the parts before
  it, last first. -/
  outer : List (List (List GlobToken) × List GlobToken) := []
  before : Option Char := none
  /-- Whether brackets stand for themselves from here on. -/
  bracketsPlain : Bool := false

namespace GlobReading

def push (reading : GlobReading) (last : Char) (tokens : List GlobToken) : GlobReading :=
  { reading with current := tokens.reverse ++ reading.current, before := some last }

def openChoice (reading : GlobReading) : GlobReading :=
  { reading with
    current := [], outer := ([], reading.current) :: reading.outer, before := some '\x7b' }

/-- Ends a branch of the innermost choice; outside a choice a comma stands for itself. -/
def comma (reading : GlobReading) : GlobReading :=
  match reading.outer with
  | [] => reading.push ',' [.literal ',']
  | (done, parts) :: outer =>
    { reading with
      current := [], outer := (reading.current.reverse :: done, parts) :: outer
      before := some ',' }

def closeChoice (reading : GlobReading) : Except GlobFault GlobReading :=
  match reading.outer with
  | [] => .error .unopenedChoice
  | (done, parts) :: outer =>
    .ok { reading with
      current := .choice (reading.current.reverse :: done).reverse :: parts, outer
      before := some '\x7d' }

/-- What two stars in front of `s` stand for, and the text after them. They stand for directories at
the start and after a slash, if a slash or the end follows; otherwise they are two single stars. -/
def twoStars (reading : GlobReading) (s : List Char) : GlobReading × List Char :=
  let plain := (reading.push '*' [.anyRun, .anyRun], s)
  let directories := fun (s : List Char) (last : Char) (token : GlobToken) =>
    match reading.current with
    | .leadingDirs :: _ => ({ reading with before := some last }, s)
    | .trailingDirs :: _ => ({ reading with before := some last }, s)
    | _ :: parts => ({ reading with current := token :: parts, before := some last }, s)
    | [] => ({ reading with current := [.leadingDirs], before := some last }, s)
  let inChoice := !reading.outer.isEmpty
  let atBranch := reading.before = some ',' ∨ reading.before = some '\x7b'
  if reading.current.isEmpty then
    match s with
    | [] => directories [] '*' .leadingDirs
    | '/' :: s => directories s '/' .leadingDirs
    | _ => plain
  else if reading.before = some '/' ∨ (inChoice ∧ atBranch) then
    match s with
    | [] => directories [] '*' .trailingDirs
    | '/' :: s => directories s '/' .innerDirs
    | c :: _ => if inChoice ∧ (c = ',' ∨ c = '\x7d') then directories s '*' .trailingDirs else plain
  else plain

private theorem length_twoStars (reading : GlobReading) (s : List Char) :
    (reading.twoStars s).2.length ≤ s.length := by
  unfold twoStars
  dsimp only
  repeat' split
  all_goals simp

def rest (rules : GlobRules) (reading : GlobReading) (s : List Char) :
    Except GlobFault (List GlobToken) :=
  match s with
  | [] => if reading.outer.isEmpty then .ok reading.current.reverse else .error .unclosedChoice
  | '*' :: '*' :: s =>
    have := reading.length_twoStars s
    rest rules (reading.twoStars s).1 (reading.twoStars s).2
  | '*' :: s => rest rules (reading.push '*' [.anyRun]) s
  | '?' :: s => rest rules (reading.push '?' [.anyOne]) s
  | '\x7b' :: s => rest rules reading.openChoice s
  | '\x7d' :: s =>
    match reading.closeChoice with
    | .ok reading => rest rules reading s
    | .error fault => .error fault
  | ',' :: s => rest rules reading.comma s
  | '\\' :: c :: s => rest rules (reading.push c [.literal c]) s
  | ['\\'] => .error .danglingEscape
  | c :: s =>
    if c = '[' ∧ !reading.bracketsPlain then
      match h : readClass s with
      | .ok (token, after) =>
        have := length_readClass h
        rest rules (reading.push ']' [token]) after
      | .error .unclosedClass =>
        if rules.allowsOpenClass then
          rest rules { reading.push '[' [.literal '['] with bracketsPlain := true } s
        else .error .unclosedClass
      | .error fault => .error fault
    else rest rules (reading.push c [.literal c]) s
termination_by s.length

end GlobReading

/-- A pattern with its variant. -/
structure Glob where
  rules : GlobRules
  tokens : List GlobToken

structure GlobError where
  pattern : String
  fault : GlobFault
  deriving DecidableEq, Repr

def GlobError.message (error : GlobError) : String :=
  "error parsing glob '" ++ error.pattern ++ "': " ++ error.fault.message

def Glob.parse (rules : GlobRules) (pattern : String) : Except GlobError Glob :=
  match GlobReading.rest rules {} pattern.toList with
  | .ok tokens => .ok ⟨rules, tokens⟩
  | .error fault => .error ⟨pattern, fault⟩

end RepoGraph
