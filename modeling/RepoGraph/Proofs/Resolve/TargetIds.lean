import RepoGraph.Proofs.Text.Pieces
import RepoGraph.Target

/-!
# The ids of packages

No name of an ecosystem has a colon, so the id of a package is cut in one way only: the ecosystem
before its first colon, the package behind it.
-/

namespace RepoGraph.Ecosystem

open Text

private theorem colon_notMem_name (ecosystem : Ecosystem) : ':' ∉ ecosystem.name.toList := by
  cases ecosystem <;> decide

private theorem name_injective {a b : Ecosystem} (h : a.name = b.name) : a = b := by
  have hall : ∀ a ∈ all, ∀ b ∈ all, a.name = b.name → a = b := by decide
  have hmem : ∀ ecosystem : Ecosystem, ecosystem ∈ all := by
    intro ecosystem
    cases ecosystem <;> decide
  exact hall a (hmem a) b (hmem b) h

private theorem takeWhile_packageId (ecosystem : Ecosystem) (package : String) :
    (ecosystem.packageId package).toList.takeWhile (· != ':') = ecosystem.name.toList := by
  have hname : ∀ c ∈ ecosystem.name.toList, (c != ':') = true := by
    intro c hc
    rw [bne_iff_ne]
    rintro rfl
    exact ecosystem.colon_notMem_name hc
  rw [packageId, String.toList_append, String.toList_append, List.append_assoc,
    List.takeWhile_append_of_pos hname]
  simp

/-- Two packages with one id are the same package of the same ecosystem. -/
theorem packageId_inj {a b : Ecosystem} {package package' : String} :
    a.packageId package = b.packageId package' ↔ a = b ∧ package = package' := by
  constructor
  · intro h
    have hchars := congrArg (fun s => s.toList.takeWhile (· != ':')) h
    simp only [takeWhile_packageId] at hchars
    have hab : a = b := name_injective (String.toList_inj.mp hchars)
    subst hab
    have hlist := congrArg String.toList h
    simp only [packageId, String.toList_append, List.append_cancel_left_eq] at hlist
    exact ⟨rfl, String.toList_inj.mp hlist⟩
  · rintro ⟨rfl, rfl⟩
    rfl

theorem startsWith_packageId (a b : Ecosystem) (package : String) :
    startsWith (a.packageId "").toList (b.packageId package).toList = decide (a = b) := by
  rw [Bool.eq_iff_iff, decide_eq_true_iff, startsWith, Option.isSome_iff_exists]
  simp only [stripStart?_eq_some_iff]
  constructor
  · rintro ⟨rest, hrest⟩
    have hid : b.packageId package = a.packageId (String.ofList rest) := by
      apply String.toList_inj.mp
      rw [hrest]
      simp [packageId]
    exact (packageId_inj.mp hid).1.symm
  · rintro rfl
    exact ⟨package.toList, by simp [packageId]⟩

end RepoGraph.Ecosystem
