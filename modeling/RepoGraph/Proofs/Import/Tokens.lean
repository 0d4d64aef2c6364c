import RepoGraph.Import.Python
import RepoGraph.Import.Rust
import RepoGraph.Proofs.Text.Pieces

/-!
# Characters of tokens

The tokens of Python and Rust are made of names, so what cannot stand in a name and joins no names
stands in no token.
-/

namespace RepoGraph

open Text

variable {c : Char}

namespace Text

private theorem notMem_takeWhile {p : Char → Bool} {s : List Char} (hc : p c = false) :
    c ∉ s.takeWhile p := by
  intro hmem
  have := List.mem_takeWhile_imp hmem
  rw [hc] at this
  cases this

private theorem notMem_name? {s name rest : List Char} (hstart : isNameStart c = false)
    (hword : isWordChar c = false) (h : name? s = some (name, rest)) : c ∉ name := by
  cases s with
  | nil => cases h
  | cons d s =>
    rw [name?] at h
    split at h
    · rename_i hd
      obtain ⟨rfl, -⟩ := Prod.mk.inj (Option.some.inj h)
      intro hmem
      rcases List.mem_cons.mp hmem with rfl | hmem
      · rw [hstart] at hd
        cases hd
      · exact notMem_takeWhile hword hmem
    · cases h

end Text

namespace Import.Python

private theorem notMem_of_mem_listedNames {list name : List Char} (hname : name ∈ listedNames list)
    (hc : (isAlphabetic c || isNumeric c || c == '_' || c == '.') = false) : c ∉ name := by
  have hmodule : isModuleName name = true := (List.mem_filter.mp hname).2
  intro hmem
  have hall := List.all_eq_true.mp (Bool.and_eq_true_iff.mp hmodule).2 c hmem
  rw [hc] at hall
  cases hall

private theorem notMem_of_fromList? {statement module list : List Char}
    (h : fromList? statement = some (module, list)) (hword : isWordChar c = false)
    (hdot : c ≠ '.') : c ∉ module := by
  unfold fromList? at h
  obtain ⟨rest, -, h⟩ := Option.bind_eq_some_iff.mp h
  obtain ⟨blank, -, h⟩ := Option.bind_eq_some_iff.mp h
  obtain ⟨names, -, h⟩ := Option.bind_eq_some_iff.mp h
  have hmodule : c ∉ rest.takeWhile fun c => isWordChar c || c == '.' := by
    apply notMem_takeWhile
    simp [hword, hdot]
  split at h
  · cases h
  · obtain ⟨rfl, -⟩ := Prod.mk.inj (Option.some.inj h)
    exact hmodule
  · split at h
    · obtain ⟨rfl, -⟩ := Prod.mk.inj (Option.some.inj h)
      exact hmodule
    · cases h

private theorem notMem_of_mem_readStatement {statement token : List Char}
    (h : token ∈ readStatement statement) (hword : isWordChar c = false)
    (hname : (isAlphabetic c || isNumeric c || c == '_' || c == '.') = false) : c ∉ token := by
  have hdot : c ≠ '.' := by
    rintro rfl
    simp at hname
  rw [readStatement] at h
  split at h
  · rename_i module list hfrom
    have hmodule := notMem_of_fromList? hfrom hword hdot
    split at h
    · split at h
      · rw [List.mem_singleton.mp h]
        exact hmodule
      · obtain ⟨name, hmem, rfl⟩ := List.mem_map.mp h
        rw [List.mem_append, not_or]
        exact ⟨hmodule, notMem_of_mem_listedNames hmem hname⟩
    · rw [List.mem_singleton.mp h]
      exact hmodule
  · cases hlist : plainList? statement with
    | none =>
      rw [hlist] at h
      cases h
    | some list =>
      rw [hlist] at h
      exact notMem_of_mem_listedNames h hname

theorem slash_notMem_of_mem_readLine {code token : List Char} {kind : ReferenceKind}
    (h : (token, kind) ∈ readLine code) : '/' ∉ token := by
  obtain ⟨found, hfound, heq⟩ := List.mem_map.mp h
  obtain ⟨rfl, -⟩ := Prod.mk.inj heq
  obtain ⟨statement, -, hmem⟩ := List.mem_flatMap.mp hfound
  exact notMem_of_mem_readStatement hmem (by decide) (by decide)

end Import.Python

namespace Import.Rust

private theorem notMem_pathFrom {done s : List Char} (hstart : isNameStart c = false)
    (hword : isWordChar c = false) (hcolon : c ≠ ':') (hdone : c ∉ done) :
    c ∉ pathFrom done s := by
  induction done, s using pathFrom.induct with
  | case1 done d s hd hlt ih =>
    rw [pathFrom, if_pos hd]
    apply ih
    have hne : c ≠ d := by
      rintro rfl
      rw [hstart] at hd
      cases hd
    simp only [List.mem_append, List.mem_reverse, List.mem_cons, not_or]
    exact ⟨notMem_takeWhile hword, hne, hcolon, hcolon, hdone⟩
  | case2 done d s hd =>
    rw [pathFrom, if_neg hd]
    rwa [List.mem_reverse]
  | case3 done s hne =>
    rw [pathFrom]
    · rwa [List.mem_reverse]
    · exact hne

private theorem notMem_of_use? {code token : List Char} (hstart : isNameStart c = false)
    (hword : isWordChar c = false) (hcolon : c ≠ ':') (h : use? code = some token) :
    c ∉ token := by
  unfold use? at h
  obtain ⟨rest, -, h⟩ := Option.bind_eq_some_iff.mp h
  obtain ⟨⟨first, rest⟩, hfirst, h⟩ := Option.bind_eq_some_iff.mp h
  obtain rfl := Option.some.inj h
  apply notMem_pathFrom hstart hword hcolon
  rw [List.mem_reverse]
  exact notMem_name? hstart hword hfirst

private theorem notMem_of_declaredModule? {code name : List Char} (hstart : isNameStart c = false)
    (hword : isWordChar c = false) (h : declaredModule? code = some name) : c ∉ name := by
  unfold declaredModule? at h
  obtain ⟨rest, -, h⟩ := Option.bind_eq_some_iff.mp h
  obtain ⟨⟨found, rest⟩, hfound, h⟩ := Option.bind_eq_some_iff.mp h
  dsimp only at h
  split at h
  · obtain rfl := Option.some.inj h
    exact notMem_name? hstart hword hfound
  · cases h

private theorem notMem_of_externalCrate? {code name : List Char} (hstart : isNameStart c = false)
    (hword : isWordChar c = false) (h : externalCrate? code = some name) : c ∉ name := by
  unfold externalCrate? at h
  obtain ⟨rest, -, h⟩ := Option.bind_eq_some_iff.mp h
  obtain ⟨rest, -, h⟩ := Option.bind_eq_some_iff.mp h
  obtain ⟨⟨found, rest⟩, hfound, h⟩ := Option.bind_eq_some_iff.mp h
  obtain rfl := Option.some.inj h
  exact notMem_name? hstart hword hfound

theorem notMem_of_mem_readLine {code token : List Char} {kind : ReferenceKind}
    (h : (token, kind) ∈ readLine code) (hstart : isNameStart c = false)
    (hword : isWordChar c = false) (hcolon : c ≠ ':') : c ∉ token := by
  obtain ⟨found, hfound, heq⟩ := List.mem_map.mp h
  obtain ⟨rfl, -⟩ := Prod.mk.inj heq
  rw [Option.mem_toList] at hfound
  rcases Option.or_eq_some_iff.mp hfound with huse | ⟨-, hfound⟩
  · exact notMem_of_use? hstart hword hcolon huse
  · rcases Option.or_eq_some_iff.mp hfound with hmodule | ⟨-, hcrate⟩
    · obtain ⟨name, hname, rfl⟩ := Option.map_eq_some_iff.mp hmodule
      rw [List.mem_append, not_or]
      refine ⟨?_, notMem_of_declaredModule? hstart hword hname⟩
      have hself : "self::".toList.all (fun d => isWordChar d || d == ':') = true := by decide
      intro hmem
      have hc := List.all_eq_true.mp hself c hmem
      rw [hword, Bool.false_or, beq_iff_eq] at hc
      exact hcolon hc
    · exact notMem_of_externalCrate? hstart hword hcrate

end Import.Rust

end RepoGraph
