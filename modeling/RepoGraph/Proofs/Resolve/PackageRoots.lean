import RepoGraph.Proofs.Resolve.Ambiguity
import RepoGraph.Proofs.Resolve.LargerIndex

/-!
# Packages of deep references

A reference into a package goes on behind the name of the package, with the separator of its
language in between. From the token to the package, each step (trimming, the marks of a language,
the ecosystem, the root of the package) looks at the name of the package only. All references into
one package have therefore one node.
-/

namespace RepoGraph

open Text

/-- Whether a token is a name, or goes on behind it with a separator and any text. -/
def Deepens (separator name token : List Char) : Prop :=
  token = name ∨ ∃ more, token = name ++ separator ++ more

/-- Whether a name has so many segments, none of them empty. -/
def IsMadeOf (separator : List Char) (count : Nat) (name : List Char) : Prop :=
  ∃ segments : List (List Char), name = separator.intercalate segments ∧ segments.length = count ∧
    ∀ segment ∈ segments, segment ≠ [] ∧ ∀ c ∈ separator, c ∉ segment

section Names

variable {c : Char} {separator name token : List Char} {count : Nat}

private theorem Deepens.takeWhile_ne (h : Deepens [c] name token) :
    token.takeWhile (· != c) = name.takeWhile (· != c) := by
  rcases h with rfl | ⟨more, rfl⟩
  · rfl
  · rw [List.append_assoc]
    exact takeWhile_ne_append c name more

theorem Deepens.head? (h : Deepens separator name token) (hname : name ≠ []) :
    token.head? = name.head? := by
  rcases h with rfl | ⟨more, rfl⟩
  · rfl
  · rw [List.append_assoc, List.head?_append, List.head?_eq_some_head hname, Option.some_or]

private theorem Deepens.dropWhile_eq (h : Deepens separator name token) (hname : name ≠ [])
    (hhead : name.head? ≠ some c) : token.dropWhile (· == c) = token :=
  dropWhile_eq_of_head?_ne (h.head? hname ▸ hhead)

theorem Deepens.trim (h : Deepens separator name token) (hname : skipBlanks name ≠ [])
    (hlast : ∀ c ∈ name.getLast?, isBlank c = false) (hseparator : separator ≠ [])
    (hplain : ∀ c ∈ separator, isBlank c = false) :
    Deepens separator (trim name) (trim token) := by
  rcases h with rfl | ⟨more, rfl⟩
  · exact Or.inl rfl
  · right
    refine ⟨cutBlanks more, ?_⟩
    have hend : ∀ c ∈ (skipBlanks name ++ separator).getLast?, isBlank c = false := by
      intro c hc
      rw [List.getLast?_append, List.getLast?_eq_some_getLast hseparator, Option.some_or] at hc
      exact hplain c (Option.some.inj hc ▸ List.getLast_mem hseparator)
    rw [trim_eq_skipBlanks hlast, Text.trim, List.append_assoc, skipBlanks_append hname,
      ← List.append_assoc, cutBlanks_append hend]

theorem IsMadeOf.ne_nil (h : IsMadeOf separator count name) (hcount : 0 < count) : name ≠ [] := by
  obtain ⟨segments, rfl, rfl, hsegments⟩ := h
  cases segments with
  | nil => exact absurd hcount (Nat.lt_irrefl 0)
  | cons first more =>
    have hfirst := (hsegments first List.mem_cons_self).1
    cases more with
    | nil => rwa [List.intercalate_singleton]
    | cons next more => simp [List.intercalate_cons_cons, hfirst]

theorem IsMadeOf.head?_ne {rest : List Char} (h : IsMadeOf (c :: rest) count name)
    (hcount : 0 < count) : name.head? ≠ some c := by
  obtain ⟨segments, rfl, rfl, hsegments⟩ := h
  cases segments with
  | nil => exact absurd hcount (Nat.lt_irrefl 0)
  | cons first more =>
    obtain ⟨hfirst, hplain⟩ := hsegments first List.mem_cons_self
    obtain ⟨d, first, rfl⟩ := List.exists_cons_of_ne_nil hfirst
    have hd : d ≠ c := by
      rintro rfl
      exact hplain d List.mem_cons_self List.mem_cons_self
    cases more with
    | nil => simpa using hd
    | cons next more => simpa [List.intercalate_cons_cons] using hd

private theorem IsMadeOf.exists_splitOnText {rest : List Char} (h : IsMadeOf (c :: rest) count name)
    (hcount : 0 < count) (hdeep : Deepens (c :: rest) name token) :
    ∃ segments more, name = (c :: rest).intercalate segments ∧ segments.length = count ∧
      (∀ segment ∈ segments, segment ≠ []) ∧
      splitOnText (c :: rest) token = segments ++ more := by
  obtain ⟨segments, hname, hlength, hsegments⟩ := h
  have hplain : ∀ segment ∈ segments, c ∉ segment := fun segment hmem =>
    (hsegments segment hmem).2 c List.mem_cons_self
  have hne : segments ≠ [] := List.length_pos_iff.mp (hlength ▸ hcount)
  have hfull : ∀ segment ∈ segments, segment ≠ [] := fun segment hmem =>
    (hsegments segment hmem).1
  rcases hdeep with rfl | ⟨more, rfl⟩
  · refine ⟨segments, [], hname, hlength, hfull, ?_⟩
    rw [hname, splitOnText_intercalate hplain hne, List.append_nil]
  · refine ⟨segments, splitOnText (c :: rest) more, hname, hlength, hfull, ?_⟩
    rw [hname, splitOnText_intercalate_append hplain hne]

end Names

namespace RootRule

variable {c : Char} {name token rest : List Char} {count : Nat}

private theorem firstPieces_of_deepens (h : IsMadeOf (c :: rest) count name) (hcount : 0 < count)
    (hdeep : Deepens (c :: rest) name token) : firstPieces (c :: rest) count token = name := by
  obtain ⟨segments, more, hname, hlength, hfull, hsplit⟩ := h.exists_splitOnText hcount hdeep
  have hfilter : segments.filter (!·.isEmpty) = segments := by
    rw [List.filter_eq_self]
    intro segment hmem
    simpa using hfull segment hmem
  rw [firstPieces, hsplit, List.filter_append, hfilter, ← hlength, List.take_left, hname, joinWith]

private theorem firstSegments_of_deepens (h : IsMadeOf ['/'] count name) (hcount : 0 < count)
    (hdeep : Deepens ['/'] name token) : firstSegments count token = name := by
  obtain ⟨segments, more, hname, hlength, -, hsplit⟩ := h.exists_splitOnText hcount hdeep
  rw [firstSegments, ← splitOnText_singleton, hsplit, ← hlength, List.take_left, hname, joinWith]

private theorem collapse_segments {separator : String} (hseparator : separator.toList = c :: rest)
    (hpath : separator ≠ "\\") (hcount : 0 < count) (h : IsMadeOf (c :: rest) count name)
    (hdeep : Deepens (c :: rest) name token) :
    (segments separator count).collapse token = name := by
  rw [collapse, if_neg (fun hboth => hpath hboth.1), hseparator,
    firstPieces_of_deepens h hcount hdeep]

private theorem collapse_namespace (h : IsMadeOf ['\\'] 2 name)
    (hdeep : Deepens ['\\'] name token) :
    (segments "\\" 2).collapse token = name := by
  have hbare : token.dropWhile (· == '\\') = token :=
    hdeep.dropWhile_eq (h.ne_nil (by decide)) (h.head?_ne (by decide))
  have hjoined : '\\' ∈ token := by
    obtain ⟨segments, more, -, hlength, -, hsplit⟩ := h.exists_splitOnText (by decide) hdeep
    have hcount := length_splitOn '\\' token
    rw [← splitOnText_singleton, hsplit, List.length_append, hlength] at hcount
    exact List.count_pos_iff.mp (by omega)
  rw [collapse, hbare, if_neg (by simpa using hjoined)]
  exact firstPieces_of_deepens h (by decide) hdeep

private theorem collapse_scopedName
    (h : IsMadeOf ['/'] (if name.head? = some '@' then 2 else 1) name)
    (hdeep : Deepens ['/'] name token) (hname : name ≠ []) : scopedName.collapse token = name := by
  rw [collapse, hdeep.head? hname, firstSegments_of_deepens h (by split <;> decide) hdeep]

private theorem collapse_hostedModule
    (h : IsMadeOf ['/'] (if (name.takeWhile (· != '/')).contains '.' then 3 else 1) name)
    (hdeep : Deepens ['/'] name token) : hostedModule.collapse token = name := by
  rw [collapse, hdeep.takeWhile_ne, firstSegments_of_deepens h (by split <;> decide) hdeep]

theorem firstPieces_ne_nil {d : Char} {more : List Char} (hcount : 0 < count) (hd : d ≠ c) :
    firstPieces [c] count (d :: more) ≠ [] := by
  obtain ⟨segment, segments, hsplit⟩ := List.exists_cons_of_ne_nil (splitOn_ne_nil c more)
  obtain ⟨rest, hrest⟩ := Nat.exists_eq_add_one_of_ne_zero (Nat.ne_of_gt hcount)
  rw [firstPieces, splitOnText_singleton, splitOn_cons, if_neg hd, hsplit, List.modifyHead_cons,
    List.filter_cons_of_pos (by simp), hrest, List.take_succ_cons, joinWith]
  cases (segments.filter (!·.isEmpty)).take rest with
  | nil => simp
  | cons next others => simp [List.intercalate_cons_cons]

end RootRule

def Language.rootRule (language : Language) (name : String) : RootRule :=
  match language.family with
  | .python => .segments "." 1
  | .javaScript => .scopedName
  | .go => if startsAtHost name then .hostedModule else .segments "/" 1
  | .java | .cSharp => .segments "." 2
  | .php => .segments "\\" 2
  | .rust => .segments "::" 1
  | _ => .segments "/" 1

/-- Whether a package comes with the platform makes no difference, except in Go. -/
theorem Ecosystem.rootRule_ofReference (language : Language) (name : String) :
    (ofReference language name).rootRule = language.rootRule name := by
  rw [ofReference, Language.rootRule]
  generalize language.family = family
  cases family with
  | python | go | java | cSharp | rust => dsimp only; split <;> rfl
  | _ => rfl

theorem Ecosystem.packageRoot_ne_empty {ecosystem : Ecosystem} {separator : String} {c d : Char}
    {count : Nat} {name : String} (hrule : ecosystem.rootRule = .segments separator count)
    (hseparator : separator.toList = [c]) (hpath : separator ≠ "\\") (hcount : 0 < count)
    (hhead : name.toList.head? = some d) (hblank : isBlank d = false) (hd : d ≠ c) :
    ecosystem.packageRoot name ≠ "" := by
  obtain ⟨more, hname⟩ := List.head?_eq_some_iff.mp hhead
  rw [packageRoot, hrule, hname, trim_cons hblank, RootRule.collapse,
    if_neg (fun hboth => hpath hboth.1), hseparator]
  exact mt String.ofList_eq_empty_iff.mp (RootRule.firstPieces_ne_nil hcount hd)

theorem Importer.external?_eq_some {importer : Importer} {name : String}
    (h : (Ecosystem.ofReference importer.language name).packageRoot name ≠ "") :
    importer.external? name = some (.external (Ecosystem.ofReference importer.language name)
      ((Ecosystem.ofReference importer.language name).packageRoot name) importer.language) := by
  rw [external?, if_neg (by simpa using h)]

theorem Importer.external?_eq_none {importer : Importer} {name : String}
    (h : (Ecosystem.ofReference importer.language name).packageRoot name = "") :
    importer.external? name = none := by
  rw [external?, if_pos (by simpa using h)]

namespace Language

def packageSeparator (language : Language) : List Char :=
  match language.family with
  | .python | .java | .cSharp => ['.']
  | .php => ['\\']
  | .rust => [':', ':']
  | _ => ['/']

def packageLength (language : Language) (name : List Char) : Nat :=
  match language.family with
  | .javaScript => if name.head? = some '@' then 2 else 1
  | .go => if (name.takeWhile (· != '/')).contains '.' then 3 else 1
  | .java | .cSharp | .php => 2
  | _ => 1

/-- The package name in a token; in a script it stands behind the scheme of built-in modules. -/
def packageName (language : Language) (token : String) : List Char :=
  if language.family = .javaScript then trim (Importer.withoutScheme token).toList
  else token.toList

/-- Whether a token is the name of a package that a language imports, and nothing more. -/
structure NamesPackage (language : Language) (token : String) : Prop where
  family : language.family ≠ .c
  trimmed : trim token.toList = token.toList
  segments : IsMadeOf language.packageSeparator
    (language.packageLength (language.packageName token)) (language.packageName token)
  noQuery : language.family = .javaScript → '?' ∉ token.toList ∧ '#' ∉ token.toList
  noStar : language.family = .java → endsWith ".*".toList token.toList = false

def outsideName (language : Language) (token : String) : String :=
  match language.family with
  | .javaScript => Importer.withoutScheme (Importer.withoutQuery token)
  | .java => Importer.withoutStar token
  | .php => String.ofList (token.toList.dropWhile (· == '\\'))
  | .c => (Importer.bracketed? token).getD token
  | _ => token

/-- The id of the package that a name outside the repository belongs to. -/
def idOutside (language : Language) (name : String) : String :=
  (Ecosystem.ofReference language name).packageId
    ((Ecosystem.ofReference language name).packageRoot name)

def namedId (language : Language) (token : String) : String :=
  (Ecosystem.ofReference language (language.outsideName token)).packageId
    (String.ofList (language.packageName token))

variable {language : Language} {root token : String}

private theorem packageLength_pos (language : Language) (name : List Char) :
    0 < language.packageLength name := by
  unfold packageLength
  split
  · split <;> decide
  · split <;> decide
  all_goals decide

private theorem isBlank_packageSeparator (language : Language) :
    ∀ c ∈ language.packageSeparator, isBlank c = false := by
  unfold packageSeparator
  split <;> simp [isBlank]

private theorem packageSeparator_ne_nil (language : Language) : language.packageSeparator ≠ [] := by
  cases language <;> decide

private theorem beforeDot_of_deepens (h : Deepens ['.'] root.toList token.toList) :
    beforeDot token = beforeDot root := by
  rw [beforeDot, h.takeWhile_ne, beforeDot]

private theorem startsAtHost_of_deepens (h : Deepens ['/'] root.toList token.toList) :
    startsAtHost token = startsAtHost root := by
  rw [startsAtHost, h.takeWhile_ne, startsAtHost]

private theorem beforeColons_of_deepens (hroot : ':' ∉ root.toList)
    (h : Deepens [':', ':'] root.toList token.toList) : beforeColons token = beforeColons root := by
  have hnone : cut? [':', ':'] root.toList = none :=
    cut?_eq_none (by decide) (not_isInfix_of_notMem List.mem_cons_self hroot)
  rcases h with h | ⟨more, h⟩
  · rw [String.toList_inj.mp h]
  · rw [beforeColons, beforeColons, hnone, h, cut?_append hroot]
    exact String.ofList_toList

private theorem ofReference_of_deepens (hrust : language.family = .rust → ':' ∉ root.toList)
    (h : Deepens language.packageSeparator root.toList token.toList) :
    Ecosystem.ofReference language token = Ecosystem.ofReference language root := by
  rw [Ecosystem.ofReference, Ecosystem.ofReference]
  rw [packageSeparator] at h
  generalize language.family = family at hrust h
  -- No ecosystem is told by more than the first segment.
  cases family with
  | python =>
    have hname : isPythonStdlib token = isPythonStdlib root := by
      rw [isPythonStdlib, beforeDot_of_deepens h, isPythonStdlib]
    simp only [hname]
  | go => simp only [startsAtHost_of_deepens h]
  | java | cSharp => simp only [beforeDot_of_deepens h]
  | rust => simp only [beforeColons_of_deepens (hrust rfl) h]
  | _ => rfl

private theorem withoutQuery_of_deepens (hquery : '?' ∉ root.toList) (hfragment : '#' ∉ root.toList)
    (h : Deepens ['/'] root.toList token.toList) :
    Deepens ['/'] root.toList (Importer.withoutQuery token).toList := by
  rw [Importer.withoutQuery, String.toList_ofList]
  rcases h with h | ⟨more, h⟩
  · left
    rw [h, ← String.toList_ofList (l := root.toList.takeWhile _)]
    exact congrArg String.toList (RepoIndex.withoutQuery_of_notMem hquery hfragment)
  · right
    refine ⟨more.takeWhile fun c => c != '?' && c != '#', ?_⟩
    have hall : ∀ c ∈ root.toList ++ ['/'], (c != '?' && c != '#') = true := by
      intro c hc
      rw [List.mem_append, List.mem_singleton] at hc
      rw [Bool.and_eq_true, bne_iff_ne, bne_iff_ne]
      rcases hc with hc | rfl
      · exact ⟨fun heq => hquery (heq ▸ hc), fun heq => hfragment (heq ▸ hc)⟩
      · decide
    rw [h, List.takeWhile_append_of_pos hall]

private theorem withoutScheme_suffix (token : String) :
    (Importer.withoutScheme token).toList <:+ token.toList := by
  rw [Importer.withoutScheme]
  cases hstart : stripStart? "node:".toList token.toList with
  | none => exact List.suffix_rfl
  | some rest =>
    rw [Option.map_some, Option.getD_some, String.toList_ofList]
    exact suffix_of_stripStart? hstart

private theorem withoutScheme_of_deepens (h : Deepens ['/'] root.toList token.toList) :
    Deepens ['/'] (Importer.withoutScheme root).toList (Importer.withoutScheme token).toList := by
  rcases h with h | ⟨more, h⟩
  · rw [String.toList_inj.mp h]
    exact Or.inl rfl
  · right
    refine ⟨more, ?_⟩
    rw [List.append_assoc] at h
    rw [Importer.withoutScheme, Importer.withoutScheme, h, List.append_assoc]
    cases hstart : stripStart? "node:".toList root.toList with
    | some rest =>
      have hname : stripStart? "node:".toList (root.toList ++ (['/'] ++ more)) =
          some (rest ++ (['/'] ++ more)) := by
        rw [stripStart?_eq_some_iff, stripStart?_eq_some_iff.mp hstart, List.append_assoc]
      rw [hname, Option.map_some, Option.getD_some, String.toList_ofList, Option.map_some,
        Option.getD_some, String.toList_ofList]
    | none =>
      have hname : stripStart? "node:".toList (root.toList ++ (['/'] ++ more)) = none := by
        rw [← Option.not_isSome_iff_eq_none, isSome_stripStart?_iff] at hstart ⊢
        exact mt (isPrefix_of_isPrefix_append_slash (by decide)) hstart
      rw [hname, Option.map_none, Option.getD_none, Option.getD_none, h]

private theorem withoutStar_of_deepens (hstar : endsWith ".*".toList root.toList = false)
    (h : Deepens ['.'] root.toList token.toList) :
    Deepens ['.'] root.toList (Importer.withoutStar token).toList := by
  rw [Importer.withoutStar]
  cases hend : stripEnd? ".*".toList token.toList with
  | none => rwa [Option.map_none, Option.getD_none]
  | some front =>
    rw [Option.map_some, Option.getD_some, String.toList_ofList]
    have hcut := stripEnd?_eq_some_iff.mp hend
    rcases h with h | ⟨more, h⟩
    · rw [← h, endsWith, hend] at hstar
      cases hstar
    · -- The dot behind the name is the one before the star, or stands in front of it.
      rw [h, List.append_assoc, List.append_eq_append_iff] at hcut
      rcases hcut with ⟨between, hfront, hbetween⟩ | ⟨between, hroot, hbetween⟩
      · cases between with
        | nil => exact Or.inl (by rw [hfront, List.append_nil])
        | cons c between =>
          obtain ⟨rfl, -⟩ := List.cons.inj hbetween
          exact Or.inr ⟨between, by rw [hfront, List.append_assoc, List.singleton_append]⟩
      · cases between with
        | nil => exact Or.inl (by rw [hroot, List.append_nil])
        | cons c between =>
          rw [List.cons_append] at hbetween
          obtain ⟨-, hstarred⟩ := List.cons.inj hbetween
          cases between with
          | nil => cases hstarred
          | cons d between => simp at hstarred

namespace NamesPackage

private theorem outsideName_eq (h : language.NamesPackage root) :
    language.outsideName root =
      if language.family = .javaScript then Importer.withoutScheme root else root := by
  unfold outsideName
  split
  · rename_i hfamily
    rw [if_pos hfamily,
      RepoIndex.withoutQuery_of_notMem (h.noQuery hfamily).1 (h.noQuery hfamily).2]
  · rename_i hfamily
    have hstar := h.noStar hfamily
    rw [endsWith, Option.isSome_eq_false_iff, Option.isNone_iff_eq_none] at hstar
    rw [if_neg (by rw [hfamily]; decide), Importer.withoutStar, hstar, Option.map_none,
      Option.getD_none]
  · rename_i hfamily
    have hsegments := h.segments
    rw [packageSeparator, packageName, hfamily, if_neg (by decide)] at hsegments
    have hbare := Deepens.dropWhile_eq (Or.inl rfl : Deepens ['\\'] root.toList root.toList)
      (hsegments.ne_nil (packageLength_pos _ _)) (hsegments.head?_ne (packageLength_pos _ _))
    rw [if_neg (by rw [hfamily]; decide), hbare, String.ofList_toList]
  · rename_i hfamily
    exact absurd hfamily h.family
  · rename_i hscript _ _ _
    rw [if_neg hscript]

theorem packageName_eq (h : language.NamesPackage root) :
    language.packageName root = trim (language.outsideName root).toList := by
  rw [h.outsideName_eq, packageName]
  split
  · rfl
  · exact h.trimmed.symm

private theorem deepens_outsideName (h : language.NamesPackage root)
    (hdeep : Deepens language.packageSeparator root.toList token.toList) :
    Deepens language.packageSeparator (language.outsideName root).toList
      (language.outsideName token).toList := by
  have hsegments := h.segments
  rw [h.outsideName_eq]
  generalize hname : language.outsideName token = name
  unfold outsideName at hname
  split at hname
  all_goals
    rename_i hfamily
    subst hname
  · rw [packageSeparator, hfamily] at hdeep ⊢
    rw [if_pos rfl]
    exact withoutScheme_of_deepens
      (withoutQuery_of_deepens (h.noQuery hfamily).1 (h.noQuery hfamily).2 hdeep)
  · rw [packageSeparator, hfamily] at hdeep ⊢
    rw [if_neg (by decide)]
    exact withoutStar_of_deepens (h.noStar hfamily) hdeep
  · rw [packageSeparator, packageName, hfamily, if_neg (by decide)] at hsegments
    rw [packageSeparator, hfamily] at hdeep ⊢
    rw [if_neg (by decide), String.toList_ofList,
      hdeep.dropWhile_eq (hsegments.ne_nil (packageLength_pos _ _))
        (hsegments.head?_ne (packageLength_pos _ _))]
    exact hdeep
  · exact absurd hfamily h.family
  · rename_i hscript _ _
    rwa [if_neg hscript]

private theorem packageName_ne_nil (h : language.NamesPackage root) :
    language.packageName root ≠ [] :=
  h.segments.ne_nil (packageLength_pos _ _)

private theorem outsideName_suffix (h : language.NamesPackage root) :
    (language.outsideName root).toList <:+ root.toList := by
  rw [h.outsideName_eq]
  split
  · exact withoutScheme_suffix root
  · exact List.suffix_rfl

private theorem skipBlanks_outsideName_ne_nil (h : language.NamesPackage root) :
    skipBlanks (language.outsideName root).toList ≠ [] := by
  intro hnil
  apply h.packageName_ne_nil
  rw [h.packageName_eq, trim, hnil]
  rfl

theorem isBlank_getLast? (h : language.NamesPackage root) :
    ∀ c ∈ root.toList.getLast?, isBlank c = false := fun _ hc =>
  getLast?_trim (h.trimmed.symm ▸ hc)

private theorem deepens_trim (h : language.NamesPackage root)
    (hdeep : Deepens language.packageSeparator root.toList token.toList) :
    Deepens language.packageSeparator root.toList (trim token.toList) := by
  have hne : skipBlanks root.toList ≠ [] := by
    intro hnil
    have hroot : root.toList = [] := by
      rw [← h.trimmed, trim, hnil]
      rfl
    have houtside : (language.outsideName root).toList = [] :=
      List.suffix_nil.mp (hroot ▸ h.outsideName_suffix)
    apply h.skipBlanks_outsideName_ne_nil
    rw [houtside]
    rfl
  have htrim := hdeep.trim hne h.isBlank_getLast? (packageSeparator_ne_nil language)
    (isBlank_packageSeparator language)
  rwa [h.trimmed] at htrim

private theorem deepens_packageName (h : language.NamesPackage root)
    (hdeep : Deepens language.packageSeparator root.toList token.toList) :
    Deepens language.packageSeparator (language.packageName root)
      (trim (language.outsideName token).toList) := by
  have hlast : ∀ c ∈ (language.outsideName root).toList.getLast?, isBlank c = false := by
    intro c hc
    obtain ⟨front, hfront⟩ := h.outsideName_suffix
    apply h.isBlank_getLast? c
    rw [← hfront, List.getLast?_append, hc, Option.some_or]
    rfl
  rw [h.packageName_eq]
  exact (h.deepens_outsideName hdeep).trim h.skipBlanks_outsideName_ne_nil hlast
    (packageSeparator_ne_nil language) (isBlank_packageSeparator language)

private theorem colon_notMem (h : language.NamesPackage root) (hrust : language.family = .rust) :
    ':' ∉ (language.outsideName root).toList := by
  have hsegments := h.segments
  obtain ⟨segments, hname, hlength, hplain⟩ := hsegments
  rw [packageSeparator, hrust] at hname hplain
  rw [packageLength, hrust] at hlength
  obtain ⟨segment, rfl⟩ := List.length_eq_one_iff.mp hlength
  rw [h.outsideName_eq, if_neg (by rw [hrust]; decide)]
  rw [packageName, if_neg (by rw [hrust]; decide), List.intercalate_singleton] at hname
  rw [hname]
  exact (hplain segment List.mem_cons_self).2 ':' List.mem_cons_self

/-- The root of the package is its name, however a reference goes on behind it. -/
theorem collapse_eq (h : language.NamesPackage root) {name : List Char}
    (hdeep : Deepens language.packageSeparator (language.packageName root) name) :
    (language.rootRule (language.outsideName root)).collapse name = language.packageName root := by
  have hsegments := h.segments
  cases language with
  | javaScript | typeScript =>
    exact RootRule.collapse_scopedName hsegments hdeep h.packageName_ne_nil
  | go =>
    have hrule : Language.rootRule .go (outsideName .go root) =
        if startsAtHost root then .hostedModule else .segments "/" 1 := rfl
    rw [hrule]
    by_cases hhost : startsAtHost root = true
    · rw [if_pos hhost]
      exact RootRule.collapse_hostedModule hsegments hdeep
    · have hlength : packageLength .go (packageName .go root) = 1 := if_neg hhost
      rw [hlength] at hsegments
      rw [if_neg hhost]
      exact RootRule.collapse_segments rfl (by decide) (by decide) hsegments hdeep
  | php => exact RootRule.collapse_namespace hsegments hdeep
  | python | java | kotlin | cSharp | ruby | rust =>
    exact RootRule.collapse_segments rfl (by decide) (by decide) hsegments hdeep
  | c | cpp => exact absurd rfl h.family

/-- All that goes on behind the name of a package has one id. -/
theorem idOutside_eq (h : language.NamesPackage root)
    (hdeep : Deepens language.packageSeparator root.toList token.toList) :
    language.idOutside (language.outsideName token) = language.namedId root := by
  rw [idOutside, ofReference_of_deepens h.colon_notMem (h.deepens_outsideName hdeep),
    Ecosystem.packageRoot, Ecosystem.rootRule_ofReference,
    h.collapse_eq (h.deepens_packageName hdeep), namedId]

end NamesPackage

section Family

variable {language' : Language} (hfamily : language.family = language'.family)
include hfamily

private theorem packageSeparator_of_family_eq :
    language.packageSeparator = language'.packageSeparator := by
  rw [packageSeparator, hfamily, packageSeparator]

private theorem packageName_of_family_eq : language.packageName = language'.packageName := by
  funext token
  rw [packageName, hfamily, packageName]

private theorem namedId_of_family_eq (token : String) :
    language.namedId token = language'.namedId token := by
  have houtside : language.outsideName token = language'.outsideName token := by
    rw [outsideName, hfamily, outsideName]
  rw [namedId, Ecosystem.ofReference, hfamily, houtside, packageName_of_family_eq hfamily]
  rfl

private theorem NamesPackage.of_family_eq (h : language.NamesPackage root) :
    language'.NamesPackage root where
  family := hfamily ▸ h.family
  trimmed := h.trimmed
  segments := by
    have hlength : language.packageLength = language'.packageLength := by
      funext name
      rw [packageLength, hfamily, packageLength]
    rw [← packageSeparator_of_family_eq hfamily, ← packageName_of_family_eq hfamily, ← hlength]
    exact h.segments
  noQuery hscript := h.noQuery (hfamily.trans hscript)
  noStar hjava := h.noStar (hfamily.trans hjava)

end Family

end Language

namespace Importer

variable {importer : Importer} {token package : String} {ecosystem : Ecosystem}
  {language : Language}

private theorem external?_of_python?
    (h : importer.python? token = some (.external ecosystem package language)) :
    importer.external? token = some (.external ecosystem package language) := by
  unfold python? at h
  split at h
  · exact absurd h relativePython?_ne_external
  · split at h
    · cases h
    · exact h

private theorem external?_of_script?
    (h : importer.script? token = some (.external ecosystem package language)) :
    importer.external? (withoutScheme (withoutQuery token)) =
      some (.external ecosystem package language) := by
  unfold script? at h
  dsimp only at h
  split at h
  · exact absurd h relative?_ne_external
  · split at h
    · cases h
    · exact h

theorem external?_of_go?
    (h : importer.go? token = some (.external ecosystem package language)) :
    importer.external? token = some (.external ecosystem package language) := by
  unfold go? at h
  split at h
  · exact absurd h relative?_ne_external
  · split at h
    · cases h
    · exact h

private theorem external?_of_jvm?
    (h : importer.jvm? token = some (.external ecosystem package language)) :
    importer.external? (withoutStar token) = some (.external ecosystem package language) := by
  unfold jvm? at h
  dsimp only at h
  split at h
  · cases h
  · exact h

private theorem external?_of_cSharp?
    (h : importer.cSharp? token = some (.external ecosystem package language)) :
    importer.external? token = some (.external ecosystem package language) := by
  unfold cSharp? at h
  split at h
  · cases h
  · exact h

private theorem external?_of_phpUse?
    (h : importer.phpUse? token = some (.external ecosystem package language)) :
    importer.external? (String.ofList (token.toList.dropWhile (· == '\\'))) =
      some (.external ecosystem package language) := by
  unfold phpUse? at h
  dsimp only at h
  split at h
  · cases h
  · split at h
    · cases h
    · exact h

private theorem external?_of_ruby?
    (h : importer.ruby? token = some (.external ecosystem package language)) :
    importer.external? token = some (.external ecosystem package language) := by
  unfold ruby? at h
  dsimp only at h
  split at h
  · exact absurd h relative?_ne_external
  · split at h
    · cases h
    · exact h

private theorem external?_of_rust?
    (h : importer.rust? token = some (.external ecosystem package language)) :
    importer.external? token = some (.external ecosystem package language) := by
  unfold rust? at h
  dsimp only at h
  split at h
  · cases h
  · split at h
    · cases h
    · exact h
    · cases h

private theorem external?_of_cFamily?
    (h : importer.cFamily? token = some (.external ecosystem package language)) :
    importer.external? ((bracketed? token).getD token) =
      some (.external ecosystem package language) := by
  unfold cFamily? at h
  cases hbracketed : bracketed? token with
  | some header =>
    rw [hbracketed] at h
    dsimp only at h
    split at h
    · cases h
    · exact h
  | none =>
    rw [hbracketed] at h
    dsimp only at h
    split at h
    · cases h
    · split at h
      · exact absurd h relative?_ne_external
      · exact h

/-- What a rule sends out of the repository, it sends to the package of its own name. -/
theorem external?_of_target? (huse : importer.language = .php → importer.kind = .uses)
    (h : importer.target? token = some (.external ecosystem package language)) :
    importer.external? (importer.language.outsideName token) =
      some (.external ecosystem package language) := by
  obtain ⟨index, file, importing, kind⟩ := importer
  cases importing with
  | python => exact external?_of_python? h
  | javaScript | typeScript => exact external?_of_script? h
  | go => exact external?_of_go? h
  | java | kotlin => exact external?_of_jvm? h
  | cSharp => exact external?_of_cSharp? h
  | php =>
    rw [target?] at h
    dsimp only at h
    rw [if_pos (huse rfl)] at h
    exact external?_of_phpUse? h
  | ruby => exact external?_of_ruby? h
  | rust => exact external?_of_rust? h
  | c | cpp => exact external?_of_cFamily? h

private theorem nodeId_of_external? {name : String} {target : Target}
    (h : importer.external? name = some target) :
    target.nodeId = importer.language.idOutside name := by
  rw [external?] at h
  split at h
  · cases h
  · obtain rfl := Option.some.inj h
    rfl

end Importer

theorem Reference.trim_written (reference : Reference) :
    reference.written.toList = trim reference.token.toList := by
  rw [Reference.written, String.toList_ofList]

theorem Reference.exists_head?_written (reference : Reference) (h : reference.written ≠ "") :
    ∃ c, reference.written.toList.head? = some c :=
  ⟨_, List.head?_eq_some_head (mt String.toList_eq_nil_iff.mp h)⟩

theorem Reference.isBlank_written (reference : Reference) {c : Char}
    (h : reference.written.toList.head? = some c) : isBlank c = false :=
  head?_trim (reference.trim_written ▸ h)

namespace RepoIndex

variable {index : RepoIndex} {reference other : Reference} {importing importing' : Language}
  {ecosystem ecosystem' : Ecosystem} {package package' token : String}
  {language language' : Language}

private theorem nodeId_of_namesPackage
    (himporting : index.importingLanguage? reference.fromFile = some importing)
    (huse : importing.family = .php → reference.kind = .uses)
    (htoken : importing.NamesPackage token)
    (hdeep : Deepens importing.packageSeparator token.toList reference.token.toList)
    (h : index.resolve? reference = some (.external ecosystem package language)) :
    (Target.external ecosystem package language).nodeId = importing.namedId token := by
  obtain ⟨-, importing', himporting', htarget, -⟩ := resolve?_eq_some_iff.mp h
  obtain rfl := Option.some.inj (himporting.symm.trans himporting')
  have hphp : importing = .php → reference.kind = .uses := by
    rintro rfl
    exact huse rfl
  have hwritten : Deepens importing.packageSeparator token.toList reference.written.toList := by
    rw [reference.trim_written]
    exact htoken.deepens_trim hdeep
  rw [Importer.nodeId_of_external? (Importer.external?_of_target? hphp htarget)]
  exact htoken.idOutside_eq hwritten

/-- Deep and root references to one package have one node: from files of one language family, what
names the package and what goes on behind its name lead out of the repository to the same id. -/
theorem nodeId_eq_of_deepens
    (himporting : index.importingLanguage? reference.fromFile = some importing)
    (himporting' : index.importingLanguage? other.fromFile = some importing')
    (hfamily : importing.family = importing'.family)
    (huse : importing.family = .php → reference.kind = .uses ∧ other.kind = .uses)
    (htoken : importing.NamesPackage token)
    (hdeep : Deepens importing.packageSeparator token.toList reference.token.toList)
    (hdeep' : Deepens importing.packageSeparator token.toList other.token.toList)
    (h : index.resolve? reference = some (.external ecosystem package language))
    (h' : index.resolve? other = some (.external ecosystem' package' language')) :
    (Target.external ecosystem package language).nodeId =
      (Target.external ecosystem' package' language').nodeId := by
  rw [Language.packageSeparator_of_family_eq hfamily] at hdeep'
  have huse' : importing'.family = .php → other.kind = .uses := fun hphp =>
    (huse (hfamily.trans hphp)).2
  calc (Target.external ecosystem package language).nodeId
    _ = importing.namedId token :=
      nodeId_of_namesPackage himporting (fun hphp => (huse hphp).1) htoken hdeep h
    _ = importing'.namedId token := Language.namedId_of_family_eq hfamily token
    _ = (Target.external ecosystem' package' language').nodeId :=
      (nodeId_of_namesPackage himporting' huse' (htoken.of_family_eq hfamily) hdeep' h').symm

def ofClass (file token : String) : Reference := ⟨file, token, .imports, 1⟩

private theorem jvm?_empty (file token : String) (importing : Language) (kind : ReferenceKind) :
    Importer.jvm? ⟨{}, file, importing, kind⟩ token =
      Importer.external? ⟨{}, file, importing, kind⟩ (Importer.withoutStar token) := by
  have hfile (suffix : String) : ({} : RepoIndex).findBySuffix? suffix = none := by
    simp [findBySuffix?]
  have hclass (parts : List String) : Importer.classFile? {} parts = none := by
    simp [Importer.classFile?, hfile]
  have hname (parts : List String) :
      Importer.namespaceOf? ⟨{}, file, importing, kind⟩ "." parts = none := by
    simp [Importer.namespaceOf?, hasNamespace]
  unfold Importer.jvm?
  dsimp only
  rw [hclass, hname, Option.none_or]

theorem importingLanguage?_empty (file : String) :
    ({} : RepoIndex).importingLanguage? file = Language.ofPath? file := by
  rw [importingLanguage?, language?, Std.HashMap.getElem?_empty, Option.none_or]

private theorem resolve?_ofClass {file token : String} {target : Target} (importing : Language)
    (hfile : Language.ofPath? file = some importing) (hjvm : importing.family = .java)
    (htrim : (ofClass file token).written = token) (htoken : token.isEmpty = false)
    (htarget : Importer.external? ⟨{}, file, importing, .imports⟩ (Importer.withoutStar token) =
      some target)
    (helse : isElsewhere file target = true) :
    ({} : RepoIndex).resolve? (ofClass file token) = some target := by
  rw [resolve?_eq_some_iff, htrim]
  refine ⟨htoken, importing, (importingLanguage?_empty file).trans hfile, ?_, helse⟩
  rw [← jvm?_empty] at htarget
  cases importing
  case java | kotlin => exact htarget
  all_goals cases hjvm

/-- A star at the end of a name does not count as a segment, and the blank behind a scheme hides
that a name has a scope. -/
theorem star_and_scheme_split_packages :
    (IsMadeOf ['.'] 2 "foo.*".toList ∧ Deepens ['.'] "foo.*".toList "foo.*.bar".toList ∧
      ({} : RepoIndex).resolve? (ofClass "A.java" "foo.*") = some (.external .maven "foo" .java) ∧
      ({} : RepoIndex).resolve? (ofClass "A.java" "foo.*.bar") =
        some (.external .maven "foo.*" .java) ∧
      (Target.external .maven "foo" .java).nodeId ≠
        (Target.external .maven "foo.*" .java).nodeId) ∧
    (IsMadeOf ['/'] 1 "node: @scope".toList ∧
      Deepens ['/'] "node: @scope".toList "node: @scope/x".toList ∧
      ({} : RepoIndex).resolve? (ofScript "node: @scope") =
        some (.external .npm "@scope" .javaScript) ∧
      ({} : RepoIndex).resolve? (ofScript "node: @scope/x") =
        some (.external .npm "@scope/x" .javaScript) ∧
      (Target.external .npm "@scope" .javaScript).nodeId ≠
        (Target.external .npm "@scope/x" .javaScript).nodeId) := by
  constructor
  · refine ⟨⟨["foo".toList, "*".toList], by decide, by decide, by simp⟩,
      Or.inr ⟨"bar".toList, by decide⟩, ?_, ?_, by decide⟩
    · exact resolve?_ofClass .java (by decide) rfl (by decide) (by decide) (by decide) rfl
    · exact resolve?_ofClass .java (by decide) rfl (by decide) (by decide) (by decide) rfl
  · refine ⟨⟨["node: @scope".toList], by decide, by decide, by simp⟩,
      Or.inr ⟨"x".toList, by decide⟩, ?_, ?_, by decide⟩
    · apply resolve?_ofScript (by decide) (by decide) ?_ (by decide)
      rw [script?_bare (by decide) (by decide)]
      decide
    · apply resolve?_ofScript (by decide) (by decide) ?_ (by decide)
      rw [script?_bare (by decide) (by decide)]
      decide

/-- A package that a Java file imports whole, and a class of it that a Kotlin file imports. -/
theorem nodeId_eq_of_deepens_slf4j :
    Language.java.NamesPackage "org.slf4j" ∧
      ({} : RepoIndex).resolve? (ofClass "A.java" "org.slf4j.*") =
        some (.external .maven "org.slf4j" .java) ∧
      ({} : RepoIndex).resolve? (ofClass "B.kt" "org.slf4j.event.Level") =
        some (.external .maven "org.slf4j" .kotlin) ∧
      (Target.external .maven "org.slf4j" .java).nodeId =
        (Target.external .maven "org.slf4j" .kotlin).nodeId := by
  have hsegments : IsMadeOf ['.'] 2 "org.slf4j".toList :=
    ⟨["org".toList, "slf4j".toList], by decide, by decide, by simp⟩
  have hname : Language.java.NamesPackage "org.slf4j" :=
    ⟨by decide, by decide, hsegments, by decide, by decide⟩
  have hwhole : ({} : RepoIndex).resolve? (ofClass "A.java" "org.slf4j.*") =
      some (.external .maven "org.slf4j" .java) :=
    resolve?_ofClass .java (by decide) rfl (by decide) (by decide) (by decide) rfl
  have hclass : ({} : RepoIndex).resolve? (ofClass "B.kt" "org.slf4j.event.Level") =
      some (.external .maven "org.slf4j" .kotlin) :=
    resolve?_ofClass .kotlin (by decide) rfl (by decide) (by decide) (by decide) rfl
  have hjava : ({} : RepoIndex).importingLanguage? "A.java" = some .java :=
    (importingLanguage?_empty _).trans (by decide)
  have hkotlin : ({} : RepoIndex).importingLanguage? "B.kt" = some .kotlin :=
    (importingLanguage?_empty _).trans (by decide)
  have hfamily : Language.java.family = Language.kotlin.family := rfl
  refine ⟨hname, hwhole, hclass, ?_⟩
  exact nodeId_eq_of_deepens hjava hkotlin hfamily (by decide) hname
    (Or.inr ⟨"*".toList, by decide⟩) (Or.inr ⟨"event.Level".toList, by decide⟩) hwhole hclass

end RepoIndex

end RepoGraph
