import RepoGraph.Reference
/-!
# Imports of Java and Kotlin

`import a.b.C;`, `import static a.b.C.m;`, `import a.b.*;` and `import a.b.C as D`.
-/
namespace RepoGraph.Import.Jvm
open Text

def qualifiedFrom (done : List Char) : List Char → List Char
  | '.' :: '*' :: _ => ('*' :: '.' :: done).reverse
  | '.' :: c :: s =>
    if isNameStart c then
      have : (s.dropWhile isWordChar).length < s.length + 2 := by
        have := (List.dropWhile_sublist isWordChar (l := s)).length_le
        omega
      qualifiedFrom ((s.takeWhile isWordChar).reverse ++ c :: '.' :: done) (s.dropWhile isWordChar)
    else done.reverse
  | _ => done.reverse
termination_by s => s.length

def qualified? (s : List Char) : Option (List Char) :=
  (name? s).map fun (first, rest) => qualifiedFrom first.reverse rest

def import? (code : List Char) : Option (List Char) := do
  let rest ← keyword? "import".toList (skipBlanks code)
  ((keyword? "static".toList rest).bind qualified?).or (qualified? rest)

def package? (code : List Char) : Option (List Char) := do
  let rest ← keyword? "package".toList (skipBlanks code)
  let (name, _) ← nameWith? (· == '.') rest
  some name

def readLine (code : List Char) : List (List Char × ReferenceKind) :=
  (import? code).toList.map (·, .imports)

end RepoGraph.Import.Jvm
