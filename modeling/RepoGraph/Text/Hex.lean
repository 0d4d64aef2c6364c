/-!
# Hexadecimal digits
-/
namespace RepoGraph.Text

def hexValue? (c : Char) : Option Nat :=
  if '0' ≤ c ∧ c ≤ '9' then some (c.toNat - '0'.toNat)
  else if 'a' ≤ c ∧ c ≤ 'f' then some (c.toNat - 'a'.toNat + 10)
  else if 'A' ≤ c ∧ c ≤ 'F' then some (c.toNat - 'A'.toNat + 10)
  else none

def hexDigit (n : Nat) : Char :=
  if n < 10 then Char.ofNat ('0'.toNat + n) else Char.ofNat ('a'.toNat + (n - 10))

def hexNumber? (start : Nat) : List Char → Option Nat
  | [] => some start
  | c :: s => (hexValue? c).bind fun d => hexNumber? (start * 16 + d) s

def hexPrefix? (count : Nat) (s : List Char) : Option (Nat × List Char) :=
  if (s.take count).length = count then (hexNumber? 0 (s.take count)).map (·, s.drop count)
  else none

theorem length_hexPrefix? {count n : Nat} {s rest : List Char} (hcount : 0 < count)
    (h : hexPrefix? count s = some (n, rest)) : rest.length < s.length := by
  unfold hexPrefix? at h
  split at h
  · obtain ⟨_, _, h⟩ := Option.map_eq_some_iff.1 h
    grind
  · simp at h

end RepoGraph.Text
