import RepoGraph.Text.Hex
import RepoGraph.Text.Split
/-!
# TOML texts and keys

The four ways to write a text: between double quotes with escapes, between single quotes as it is,
and both over several lines between three quotes. Each function is given the characters after the
opening quotes.
-/
namespace RepoGraph.Toml
open Text

def isGap (c : Char) : Bool := c == ' ' || c == '\t'

def skipGap (s : List Char) : List Char := s.dropWhile isGap

/-- Whether a character may stand inside a line of text: every one but the control characters other
than the tabulator. -/
def isPrintable (c : Char) : Bool := (0x20 ≤ c.toNat && c.toNat != 0x7F) || c == '\t'

def newline? : List Char → Option (List Char)
  | '\n' :: s => some s
  | '\r' :: '\n' :: s => some s
  | _ => none

theorem length_newline? {s rest : List Char} (h : newline? s = some rest) :
    rest.length < s.length := by
  unfold newline? at h
  split at h <;> grind

theorem length_skipGap (s : List Char) : (skipGap s).length ≤ s.length :=
  (List.dropWhile_sublist isGap (l := s)).length_le

def plainEscape? : Char → Option Char
  | 'b' => some '\x08'
  | 'f' => some '\x0C'
  | 'n' => some '\n'
  | 'r' => some '\r'
  | 't' => some '\t'
  | '\\' => some '\\'
  | '"' => some '"'
  | _ => none

def charWith? (n : Nat) : Option Char := if n.isValidChar then some (Char.ofNat n) else none

def digitCount? : Char → Option Nat
  | 'u' => some 4
  | 'U' => some 8
  | _ => none

def numericEscape? (count : Nat) (s : List Char) : Option (Char × List Char) :=
  (hexPrefix? count s).bind fun (n, rest) => (charWith? n).map (·, rest)

def escape? : List Char → Option (Char × List Char)
  | [] => none
  | c :: s =>
    match digitCount? c with
    | some count => numericEscape? count s
    | none => (plainEscape? c).map (·, s)

private theorem length_numericEscape? {count : Nat} {s rest : List Char} {c : Char}
    (h : numericEscape? count s = some (c, rest)) : rest.length ≤ s.length := by
  obtain ⟨⟨n, more⟩, hn, h⟩ := Option.bind_eq_some_iff.1 h
  obtain ⟨_, _, h⟩ := Option.map_eq_some_iff.1 h
  unfold hexPrefix? at hn
  split at hn
  · obtain ⟨_, _, hn⟩ := Option.map_eq_some_iff.1 hn
    grind
  · simp at hn

theorem length_escape? {s rest : List Char} {c : Char} (h : escape? s = some (c, rest)) :
    rest.length < s.length := by
  unfold escape? at h
  split at h
  · simp at h
  · split at h
    · have := length_numericEscape? h
      simp only [List.length_cons]
      omega
    · obtain ⟨_, _, h⟩ := Option.map_eq_some_iff.1 h
      grind

/-- The rest of a text up to its closing double quote; `done` holds what was read, last first. -/
def basicFrom? (done : List Char) : List Char → Option (String × List Char)
  | [] => none
  | c :: s =>
    if c = '"' then some (String.ofList done.reverse, s)
    else if c = '\\' then
      match h : escape? s with
      | some (d, rest) =>
        have := length_escape? h
        basicFrom? (d :: done) rest
      | none => none
    else if isPrintable c then basicFrom? (c :: done) s
    else none
termination_by s => s.length

def literal? (s : List Char) : Option (String × List Char) :=
  match s.dropWhile (· != '\'') with
  | [] => none
  | _ :: rest =>
    let inside := s.takeWhile (· != '\'')
    if inside.all isPrintable then some (String.ofList inside, rest) else none

private theorem length_basicFrom? {done s rest : List Char} {t : String}
    (h : basicFrom? done s = some (t, rest)) : rest.length < s.length := by
  fun_induction basicFrom? done s <;> grind [length_escape?]

private theorem length_literal? {s rest : List Char} {t : String}
    (h : literal? s = some (t, rest)) :
    rest.length < s.length := by
  unfold literal? at h
  split at h
  · simp at h
  · rename_i c more hmore
    have := (List.dropWhile_sublist (· != '\'') (l := s)).length_le
    rw [hmore] at this
    grind

/-- What follows three closing quotes: up to two more of them still belong to the text. -/
def closeMultiline (quote : Char) (done s : List Char) : String × List Char :=
  let extra := (s.take 2).takeWhile (· == quote)
  (String.ofList (extra ++ done).reverse, s.drop extra.length)

def skipSpace : List Char → List Char
  | [] => []
  | '\r' :: '\n' :: s => skipSpace s
  | c :: s => if isGap c || c == '\n' then skipSpace s else c :: s

def hiddenBreak? (s : List Char) : Option (List Char) := (newline? (skipGap s)).map skipSpace

private theorem length_skipSpace (s : List Char) : (skipSpace s).length ≤ s.length := by
  fun_induction skipSpace s <;> grind

private theorem length_hiddenBreak? {s rest : List Char} (h : hiddenBreak? s = some rest) :
    rest.length < s.length := by
  obtain ⟨more, hm, h⟩ := Option.map_eq_some_iff.1 h
  have := length_newline? hm
  have := length_skipGap s
  have := length_skipSpace more
  grind

private theorem length_closeMultiline (quote : Char) (done s : List Char) :
    (closeMultiline quote done s).2.length ≤ s.length := by
  simp [closeMultiline]

def multilineBasicFrom? (done : List Char) (s : List Char) : Option (String × List Char) :=
  match stripStart? ['"', '"', '"'] s with
  | some rest => some (closeMultiline '"' done rest)
  | none =>
    match hn : newline? s with
    | some rest =>
      have := length_newline? hn
      multilineBasicFrom? ('\n' :: done) rest
    | none =>
      match s with
      | [] => none
      | c :: s =>
        if c = '\\' then
          match hb : hiddenBreak? s with
          | some rest =>
            have := length_hiddenBreak? hb
            multilineBasicFrom? done rest
          | none =>
            match he : escape? s with
            | some (d, rest) =>
              have := length_escape? he
              multilineBasicFrom? (d :: done) rest
            | none => none
        else if isPrintable c then multilineBasicFrom? (c :: done) s
        else none
termination_by s.length

def multilineLiteralFrom? (done : List Char) (s : List Char) : Option (String × List Char) :=
  match stripStart? ['\'', '\'', '\''] s with
  | some rest => some (closeMultiline '\'' done rest)
  | none =>
    match hn : newline? s with
    | some rest =>
      have := length_newline? hn
      multilineLiteralFrom? ('\n' :: done) rest
    | none =>
      match s with
      | [] => none
      | c :: s => if isPrintable c then multilineLiteralFrom? (c :: done) s else none
termination_by s.length

private theorem length_multilineBasicFrom? {done s rest : List Char} {t : String}
    (h : multilineBasicFrom? done s = some (t, rest)) : rest.length < s.length := by
  fun_induction multilineBasicFrom? done s with
  | case1 done s more hs =>
    have := length_stripStart? hs
    have := length_closeMultiline '"' done more
    grind
  | _ => grind [length_escape?, length_newline?, length_hiddenBreak?]

private theorem length_multilineLiteralFrom? {done s rest : List Char} {t : String}
    (h : multilineLiteralFrom? done s = some (t, rest)) : rest.length < s.length := by
  fun_induction multilineLiteralFrom? done s with
  | case1 done s more hs =>
    have := length_stripStart? hs
    have := length_closeMultiline '\'' done more
    grind
  | _ => grind [length_newline?]

def skipNewline (s : List Char) : List Char := (newline? s).getD s

private theorem length_skipNewline (s : List Char) : (skipNewline s).length ≤ s.length := by
  unfold skipNewline
  cases h : newline? s with
  | none => exact Nat.le_refl _
  | some rest => exact Nat.le_of_lt (length_newline? h)

def text? (s : List Char) : Option (String × List Char) :=
  match stripStart? ['"', '"', '"'] s with
  | some rest => multilineBasicFrom? [] (skipNewline rest)
  | none =>
    match stripStart? ['\'', '\'', '\''] s with
    | some rest => multilineLiteralFrom? [] (skipNewline rest)
    | none =>
      match s with
      | '"' :: s => basicFrom? [] s
      | '\'' :: s => literal? s
      | _ => none

theorem length_text? {s rest : List Char} {t : String} (h : text? s = some (t, rest)) :
    rest.length < s.length := by
  unfold text? at h
  split at h
  · rename_i more hmore
    have := length_multilineBasicFrom? h
    have := length_skipNewline more
    have := length_stripStart? hmore
    omega
  · split at h
    · rename_i more hmore
      have := length_multilineLiteralFrom? h
      have := length_skipNewline more
      have := length_stripStart? hmore
      omega
    · split at h
      · have := length_basicFrom? h
        grind
      · have := length_literal? h
        grind
      · simp at h

def isKeyChar (c : Char) : Bool := c.isAlphanum || c == '_' || c == '-'

def keyPart? : List Char → Option (String × List Char)
  | '"' :: s => basicFrom? [] s
  | '\'' :: s => literal? s
  | s =>
    match s.takeWhile isKeyChar with
    | [] => none
    | part => some (String.ofList part, s.dropWhile isKeyChar)

private theorem length_keyPart? {s rest : List Char} {part : String}
    (h : keyPart? s = some (part, rest)) : rest.length < s.length := by
  unfold keyPart? at h
  split at h
  · have := length_basicFrom? h
    grind
  · have := length_literal? h
    grind
  · split at h
    · simp at h
    · rename_i hne
      have := length_dropWhile_lt hne
      grind

def keyFrom? (done : List String) (s : List Char) : Option (List String × List Char) :=
  match h : keyPart? (skipGap s) with
  | none => none
  | some (part, rest) =>
    match hr : skipGap rest with
    | '.' :: more =>
      have : more.length < s.length := by
        have := length_keyPart? h
        have := length_skipGap s
        have := length_skipGap rest
        grind
      keyFrom? (part :: done) more
    | more => some ((part :: done).reverse, more)
termination_by s.length

def keyLimit : Nat := 80

def key? (s : List Char) : Option (List String × List Char) :=
  (keyFrom? [] s).filter (·.1.length < keyLimit)

private theorem length_keyFrom? {done parts : List String} {s rest : List Char}
    (h : keyFrom? done s = some (parts, rest)) : rest.length < s.length := by
  fun_induction keyFrom? done s with
  | case1 => simp at h
  | case2 done s part rest₁ hp more hm _ ih =>
    have := ih h
    have := length_keyPart? hp
    have := length_skipGap s
    have := length_skipGap rest₁
    grind
  | case3 done s part rest₁ hp _ =>
    have := length_keyPart? hp
    have := length_skipGap s
    have := length_skipGap rest₁
    grind

theorem length_key? {parts : List String} {s rest : List Char}
    (h : key? s = some (parts, rest)) : rest.length < s.length :=
  length_keyFrom? (Option.filter_eq_some_iff.1 h).1

end RepoGraph.Toml
