import RepoGraph.Path
import RepoGraph.Text.Lower
/-!
# Languages

The languages whose imports are read, how a file's language is told from its path or its first
line, and the filter that restricts a view to one language.
-/
namespace RepoGraph

inductive Language where
  | python | javaScript | typeScript | go | java | kotlin | cSharp | php | ruby | rust | c | cpp
  deriving DecidableEq, Repr, Inhabited

namespace Language

def all : List Language :=
  [python, javaScript, typeScript, go, java, kotlin, cSharp, php, ruby, rust, c, cpp]

def name : Language → String
  | python => "python"
  | javaScript => "javascript"
  | typeScript => "typescript"
  | go => "go"
  | java => "java"
  | kotlin => "kotlin"
  | cSharp => "csharp"
  | php => "php"
  | ruby => "ruby"
  | rust => "rust"
  | c => "c"
  | cpp => "cpp"

def ofName? (name : String) : Option Language := all.find? fun language => language.name == name

def ofLowerExtension? : String → Option Language
  | "py" | "pyi" => some python
  | "js" | "jsx" | "mjs" | "cjs" => some javaScript
  | "ts" | "tsx" | "mts" | "cts" => some typeScript
  | "go" => some go
  | "java" => some java
  | "kt" | "kts" => some kotlin
  | "cs" => some cSharp
  | "php" => some php
  | "rb" => some ruby
  | "rs" => some rust
  | "c" | "h" => some c
  | "cpp" | "cc" | "cxx" | "hpp" | "hh" | "hxx" => some cpp
  | _ => none

def ofExtension? (ext : String) : Option Language :=
  ofLowerExtension? (String.ofList (Text.lower ext.toList))

def ofPath? (path : String) : Option Language := (Path.extension? path).bind ofExtension?

def ofInterpreter? (name : List Char) : Option Language :=
  if Text.startsWith "python".toList name then some python
  else if ["node", "nodejs", "deno", "bun"].any (·.toList == name) then some javaScript
  else if Text.startsWith "ruby".toList name then some ruby
  else if Text.startsWith "php".toList name then some php
  else none

/-- Whether a word of a first line can name an interpreter: it is no option and not the launcher
that looks the interpreter up. -/
def namesInterpreter (word : List Char) : Bool :=
  !Text.startsWith ['-'] word && word != "env".toList && !Text.endsWith "/env".toList word

def ofShebang? (firstLine : String) : Option Language := do
  let line ← Text.stripStart? ['#', '!'] firstLine.toList
  let interpreter ← (Text.words line).find? namesInterpreter
  ofInterpreter? (Path.fileName (String.ofList interpreter)).toList

/-- The extensions tried, in order, when a reference leaves the extension out. -/
def sourceSuffixes : Language → List String
  | python => [".py", ".pyi"]
  | javaScript | typeScript =>
    [".ts", ".tsx", ".js", ".jsx", ".mjs", ".cjs", ".mts", ".cts"]
  | go => [".go"]
  | java | kotlin => [".java", ".kt"]
  | cSharp => [".cs"]
  | php => [".php"]
  | ruby => [".rb"]
  | rust => [".rs"]
  | c | cpp => ["", ".h", ".hpp", ".hh"]

/-- The language that stands for a group of languages which import each other's files. -/
def family : Language → Language
  | typeScript => javaScript
  | cpp => c
  | kotlin => java
  | language => language

def ofAlias? : String → Option Language
  | "python" | "py" => some python
  | "javascript" | "js" | "npm" | "node" => some javaScript
  | "typescript" | "ts" => some typeScript
  | "go" | "golang" => some go
  | "java" => some java
  | "kotlin" | "kt" => some kotlin
  | "csharp" | "cs" | "c#" | "dotnet" | ".net" => some cSharp
  | "php" => some php
  | "ruby" | "rb" => some ruby
  | "rust" | "rs" => some rust
  | "c" => some c
  | "cpp" | "c++" | "cxx" => some cpp
  | _ => none

end Language

structure UnknownLanguage where
  text : String
  deriving DecidableEq, Repr

def UnknownLanguage.message (error : UnknownLanguage) : String :=
  "unknown language '" ++ error.text ++ "'"

/-- The language that a text names, blanks around it and case aside. -/
def Language.parse (text : String) : Except UnknownLanguage Language :=
  let key := String.ofList (Text.lower (Text.trim text.toList))
  match Language.ofAlias? key with
  | some language => .ok language
  | none => .error ⟨key⟩

/-- Which nodes a view keeps: all, or those of one language family. -/
inductive LanguageFilter where
  | all
  | only (language : Language)
  deriving DecidableEq, Repr, Inhabited

namespace LanguageFilter

/-- The filter that a text names; the word `all` in any case and a blank text keep everything. -/
def parse (text : String) : Except UnknownLanguage LanguageFilter :=
  let word := Text.trim text.toList
  if word.isEmpty || word.map Char.toLower == "all".toList then .ok .all
  else (Language.parse text).map only

def name : LanguageFilter → String
  | all => "all"
  | only language => language.name

end LanguageFilter
end RepoGraph
