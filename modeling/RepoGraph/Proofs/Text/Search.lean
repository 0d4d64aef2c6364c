import RepoGraph.Proofs.Text.Pieces
import RepoGraph.Text.Name

/-!
# Searching a text

A search from the left passes over what is not found and goes on behind what is.
-/

namespace RepoGraph.Text

variable {α : Type} {read : Option Char → List Char → Option (α × List Char)}
  {advances : ∀ {before s found rest}, read before s = some (found, rest) → rest.length < s.length}

theorem findAll_append {s : List Char} (t : List Char)
    (h : ∀ before u, u ≠ [] → u <:+ s → read before (u ++ t) = none) (before : Option Char) :
    findAll read advances before (s ++ t) =
      findAll read advances (s.getLast?.or before) t := by
  induction s generalizing before with
  | nil => rfl
  | cons c s ih =>
    have hnone := h before (c :: s) (List.cons_ne_nil _ _) List.suffix_rfl
    rw [List.cons_append] at hnone ⊢
    have hrest : findAll read advances before (c :: (s ++ t)) =
        findAll read advances (some c) (s ++ t) := by
      rw [findAll]
      split
      · rename_i hsome
        rw [hnone] at hsome
        cases hsome
      · rfl
    have hlast : (c :: s).getLast? = s.getLast?.or (some c) := by
      rw [List.getLast?_cons]
      cases s.getLast? <;> rfl
    rw [hrest, ih (fun before u hu hsuffix => h before u hu (hsuffix.trans (List.suffix_cons c s))),
      hlast, Option.or_assoc, Option.some_or]

theorem findAll_eq_nil {s : List Char} (h : ∀ before u, u <:+ s → read before u = none)
    (before : Option Char) : findAll read advances before s = [] := by
  have hpass : findAll read advances before (s ++ []) =
      findAll read advances (s.getLast?.or before) [] := by
    apply findAll_append
    intro before u _ hsuffix
    rw [List.append_nil]
    exact h before u hsuffix
  rw [List.append_nil] at hpass
  rw [hpass, findAll]

theorem findAll_of_eq_some {before : Option Char} {s rest : List Char} {found : α}
    (h : read before s = some (found, rest)) (hne : s ≠ []) :
    findAll read advances before s = found :: findAll read advances none rest := by
  obtain ⟨c, s, rfl⟩ := List.exists_cons_of_ne_nil hne
  rw [findAll]
  split
  · rename_i hsome
    rw [h] at hsome
    cases hsome
    rfl
  · rename_i hnone
    rw [h] at hnone
    cases hnone

theorem head?_findAll {before : Option Char} {s rest : List Char} {found : α}
    (h : read before s = some (found, rest)) (hne : s ≠ []) :
    (findAll read advances before s).head? = some found := by
  rw [findAll_of_eq_some h hne, List.head?_cons]

end RepoGraph.Text
