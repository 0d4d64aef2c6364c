import RepoGraph.Reference
/-!
# Imports of Rust

`use` paths up to a group or star, `mod name;` declarations, reported as `self::name`, and
`extern crate`.
-/
namespace RepoGraph.Import.Rust
open Text

/-- The line after its visibility, which is `pub` with or without a scope in parentheses. -/
def afterVisibility (s : List Char) : List Char :=
  let visible := do
    let rest ← stripStart? "pub".toList s
    match skipBlanks rest with
    | '(' :: inside =>
      match inside.dropWhile (· != ')') with
      | _ :: rest => blanks? rest
      | [] => none
    | _ => blanks? rest
  visible.getD s

def pathFrom (done : List Char) : List Char → List Char
  | ':' :: ':' :: c :: s =>
    if isNameStart c then
      have : (s.dropWhile isWordChar).length < s.length + 3 := by
        have := (List.dropWhile_sublist isWordChar (l := s)).length_le
        omega
      pathFrom ((s.takeWhile isWordChar).reverse ++ c :: ':' :: ':' :: done)
        (s.dropWhile isWordChar)
    else done.reverse
  | _ => done.reverse
termination_by s => s.length

def use? (code : List Char) : Option (List Char) := do
  let rest ← keyword? "use".toList (afterVisibility (skipBlanks code))
  let (first, rest) ← name? ((stripStart? [':', ':'] rest).getD rest)
  some (pathFrom first.reverse rest)

def declaredModule? (code : List Char) : Option (List Char) := do
  let rest ← keyword? "mod".toList (afterVisibility (skipBlanks code))
  let (name, rest) ← name? rest
  if (skipBlanks rest).head? = some ';' then some name else none

def externalCrate? (code : List Char) : Option (List Char) := do
  let rest ← keyword? "extern".toList (skipBlanks code)
  let rest ← keyword? "crate".toList rest
  let (name, _) ← name? rest
  some name

def readLine (code : List Char) : List (List Char × ReferenceKind) :=
  let token := (use? code).or
    (((declaredModule? code).map ("self::".toList ++ ·)).or (externalCrate? code))
  token.toList.map (·, .uses)

end RepoGraph.Import.Rust
