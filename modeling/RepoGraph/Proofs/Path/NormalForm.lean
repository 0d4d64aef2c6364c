import RepoGraph.Path
import RepoGraph.Proofs.Text.Pieces

/-!
# Paths in normal form

A path is its own normal form when it is the root or all its segments are proper names. Joining,
going up and normalizing stay within such paths.
-/

namespace RepoGraph.Path

open Text

theorem segments_ne_nil (path : String) : segments path ≠ [] :=
  mt List.map_eq_nil_iff.mp (splitOn_ne_nil '/' path.toList)

theorem slash_notMem_of_mem_segments {path segment : String} (h : segment ∈ segments path) :
    '/' ∉ segment.toList := by
  obtain ⟨piece, hpiece, rfl⟩ := List.mem_map.mp h
  rw [String.toList_ofList]
  exact (of_mem_splitOn hpiece).1

theorem isInfix_of_mem_segments {path segment : String} (h : segment ∈ segments path) :
    segment.toList <:+: path.toList := by
  obtain ⟨piece, hpiece, rfl⟩ := List.mem_map.mp h
  rw [String.toList_ofList]
  exact (of_mem_splitOn hpiece).2

theorem intercalate_segments (path : String) : "/".intercalate (segments path) = path := by
  apply String.toList_inj.mp
  have hpieces : (segments path).map String.toList = splitOn '/' path.toList := by
    rw [segments, pieces, List.map_map]
    simp
  rw [String.toList_intercalate, hpieces]
  exact intercalate_splitOn '/' path.toList

theorem segments_intercalate {names : List String} (h : ∀ name ∈ names, '/' ∉ name.toList)
    (hne : names ≠ []) : segments ("/".intercalate names) = names := by
  have hslash : "/".toList = ['/'] := rfl
  rw [segments, pieces, String.toList_intercalate, hslash, splitOn_intercalate, List.map_map]
  · simp
  · intro piece hpiece
    obtain ⟨name, hname, rfl⟩ := List.mem_map.mp hpiece
    exact h name hname
  · simpa using hne

theorem segments_of_slash_notMem {path : String} (h : '/' ∉ path.toList) :
    segments path = [path] := by
  rw [segments, pieces, splitOn_of_notMem h]
  simp

theorem segments_append (dir path : String) :
    segments (dir ++ "/" ++ path) = segments dir ++ segments path := by
  have hchars : (dir ++ "/" ++ path).toList = dir.toList ++ '/' :: path.toList := by
    rw [String.toList_append, String.toList_append, List.append_assoc]
    rfl
  rw [segments, pieces, hchars, splitOn_append_cons, List.map_append]
  rfl

theorem segments_join {dir path : String} (hdir : dir ≠ "") (hpath : path ≠ "") :
    segments (join dir path) = segments dir ++ segments path := by
  rw [join, if_neg (by simpa using hdir), if_neg (by simpa using hpath), segments_append]

theorem join_root_left (path : String) : join "" path = path := rfl

theorem join_root_right (dir : String) : join dir "" = dir := by
  by_cases hdir : dir = ""
  · rw [hdir, join_root_left]
  · rw [join, if_neg (by simpa using hdir), if_pos (by simp)]

theorem join_of_ne_root {dir path : String} (hdir : dir ≠ "") (hpath : path ≠ "") :
    join dir path = dir ++ "/" ++ path := by
  rw [join, if_neg (by simpa using hdir), if_neg (by simpa using hpath)]

theorem join_assoc (a b c : String) : join (join a b) c = join a (join b c) := by
  by_cases ha : a = ""
  · rw [ha, join_root_left, join_root_left]
  · by_cases hb : b = ""
    · rw [hb, join_root_right, join_root_left]
    · by_cases hc : c = ""
      · rw [hc, join_root_right, join_root_right]
      · have hab : a ++ "/" ++ b ≠ "" := by simp [hb]
        have hbc : b ++ "/" ++ c ≠ "" := by simp [hc]
        rw [join_of_ne_root ha hb, join_of_ne_root hab hc, join_of_ne_root hb hc,
          join_of_ne_root ha hbc]
        simp only [String.append_assoc]

theorem intercalate_ne_empty {separator : String} {names : List String} (h : "" ∉ names)
    (hne : names ≠ []) : separator.intercalate names ≠ "" := by
  obtain ⟨name, names, rfl⟩ := List.exists_cons_of_ne_nil hne
  have hname : name ≠ "" := fun heq => h (heq ▸ List.mem_cons_self)
  cases names with
  | nil => rwa [String.intercalate_singleton]
  | cons next names => simp [hname]

theorem intercalate_append {front back : List String} (hfront : "" ∉ front) (hback : "" ∉ back) :
    "/".intercalate (front ++ back) = join ("/".intercalate front) ("/".intercalate back) := by
  by_cases hf : front = []
  · rw [hf, List.nil_append, String.intercalate_nil, join_root_left]
  · by_cases hb : back = []
    · rw [hb, List.append_nil, String.intercalate_nil, join_root_right]
    · rw [String.intercalate_append_of_ne_nil hf hb,
        join_of_ne_root (intercalate_ne_empty hfront hf) (intercalate_ne_empty hback hb)]

def IsName (segment : String) : Prop := segment ≠ "" ∧ segment ≠ "." ∧ segment ≠ ".."

theorem isName_ofList {name : List Char} (hne : name ≠ []) (hdot : '.' ∉ name) :
    IsName (String.ofList name) := by
  refine ⟨?_, ?_, ?_⟩
  · intro heq
    exact hne (String.ofList_inj.mp heq)
  · intro heq
    obtain rfl : name = ['.'] := String.ofList_inj.mp heq
    exact hdot List.mem_cons_self
  · intro heq
    obtain rfl : name = ['.', '.'] := String.ofList_inj.mp heq
    exact hdot List.mem_cons_self

theorem walk_cons_of_isName {segment : String} (h : IsName segment) (above rest : List String) :
    walk above (segment :: rest) = walk (segment :: above) rest := by
  obtain ⟨hempty, hhere, hup⟩ := h
  rw [walk.eq_def]
  dsimp only
  rw [if_neg (not_or.mpr ⟨hempty, hhere⟩), if_neg hup]

theorem walk_of_isName {segments : List String} (h : ∀ segment ∈ segments, IsName segment)
    (above : List String) : walk above segments = some (above.reverse ++ segments) := by
  induction segments generalizing above with
  | nil => rw [walk, List.append_nil]
  | cons segment segments ih =>
    have hrest := ih (fun s hs => h s (List.mem_cons_of_mem segment hs)) (segment :: above)
    rw [walk_cons_of_isName (h segment List.mem_cons_self), hrest, List.reverse_cons,
      List.append_assoc, List.singleton_append]

theorem of_mem_walk {segments above names : List String} (h : walk above segments = some names)
    (habove : ∀ name ∈ above, IsName name) {name : String} (hname : name ∈ names) :
    IsName name ∧ (name ∈ above ∨ name ∈ segments) := by
  induction segments generalizing above with
  | nil =>
    rw [walk, Option.some.injEq] at h
    rw [← h, List.mem_reverse] at hname
    exact ⟨habove name hname, Or.inl hname⟩
  | cons segment segments ih =>
    -- However the walk goes on, the names above are those from before or the one just entered.
    have later {above' : List String} (h' : walk above' segments = some names)
        (habove' : ∀ name ∈ above', IsName name)
        (hsub : ∀ name ∈ above', name ∈ above ∨ name = segment) :
        IsName name ∧ (name ∈ above ∨ name ∈ segment :: segments) := by
      obtain ⟨hproper, hmem⟩ := ih h' habove'
      refine ⟨hproper, ?_⟩
      rcases hmem with hmem | hmem
      · rcases hsub name hmem with hmem | rfl
        · exact Or.inl hmem
        · exact Or.inr List.mem_cons_self
      · exact Or.inr (List.mem_cons_of_mem segment hmem)
    rw [walk.eq_def] at h
    dsimp only at h
    split at h
    · exact later h habove fun _ => Or.inl
    · rename_i hstay
      split at h
      · split at h
        · cases h
        · exact later h (fun s hs => habove s (List.mem_cons_of_mem _ hs))
            fun _ hs => Or.inl (List.mem_cons_of_mem _ hs)
      · rename_i hup
        apply later h
        · intro s hs
          rcases List.mem_cons.mp hs with rfl | hs
          · exact ⟨(not_or.mp hstay).1, (not_or.mp hstay).2, hup⟩
          · exact habove s hs
        · intro s hs
          exact (List.mem_cons.mp hs).symm

/-- Whether a path is its own normal form. -/
def IsNormal (path : String) : Prop := normalize? path = some path

theorem eq_intercalate_of_normalize? {path result : String} (h : normalize? path = some result) :
    ∃ names, result = "/".intercalate names ∧
      ∀ name ∈ names, IsName name ∧ name ∈ segments path := by
  obtain ⟨names, hwalk, rfl⟩ := Option.map_eq_some_iff.mp h
  refine ⟨names, rfl, ?_⟩
  intro name hname
  obtain ⟨hproper, hmem⟩ := of_mem_walk hwalk (by simp) hname
  exact ⟨hproper, hmem.resolve_left List.not_mem_nil⟩

theorem isNormal_root : IsNormal "" := rfl

theorem isNormal_of_isName {path : String} (h : ∀ segment ∈ segments path, IsName segment) :
    IsNormal path := by
  rw [IsNormal, normalize?, walk_of_isName h, Option.map_some, List.reverse_nil, List.nil_append,
    intercalate_segments]

theorem isNormal_of_normalize? {path result : String} (h : normalize? path = some result) :
    IsNormal result := by
  obtain ⟨names, rfl, hnames⟩ := eq_intercalate_of_normalize? h
  by_cases hne : names = []
  · subst hne
    exact isNormal_root
  · apply isNormal_of_isName
    rw [segments_intercalate (fun name hname => slash_notMem_of_mem_segments (hnames name hname).2)
      hne]
    exact fun name hname => (hnames name hname).1

/-- A path in normal form is the root or has names as segments only. -/
theorem isNormal_iff {path : String} :
    IsNormal path ↔ path = "" ∨ ∀ segment ∈ segments path, IsName segment := by
  constructor
  · intro h
    obtain ⟨names, heq, hnames⟩ := eq_intercalate_of_normalize? h
    by_cases hne : names = []
    · left
      rw [heq, hne]
      rfl
    · right
      rw [heq, segments_intercalate
        (fun name hname => slash_notMem_of_mem_segments (hnames name hname).2) hne]
      exact fun name hname => (hnames name hname).1
  · rintro (rfl | h)
    · exact isNormal_root
    · exact isNormal_of_isName h

theorem IsNormal.isName {path segment : String} (h : IsNormal path) (hne : path ≠ "")
    (hsegment : segment ∈ segments path) : IsName segment :=
  (isNormal_iff.mp h).resolve_left hne segment hsegment

theorem IsNormal.join {dir path : String} (hdir : IsNormal dir) (hpath : IsNormal path) :
    IsNormal (join dir path) := by
  by_cases hd : dir = ""
  · rw [Path.join, if_pos (by simpa using hd)]
    exact hpath
  · by_cases hp : path = ""
    · rw [Path.join, if_neg (by simpa using hd), if_pos (by simpa using hp)]
      exact hdir
    · apply isNormal_of_isName
      rw [segments_join hd hp]
      intro segment hsegment
      rcases List.mem_append.mp hsegment with hmem | hmem
      · exact hdir.isName hd hmem
      · exact hpath.isName hp hmem

theorem eq_append_of_cutLast? {path : String} {dir name : List Char}
    (h : cutLast? '/' path.toList = some (dir, name)) :
    path = String.ofList dir ++ "/" ++ String.ofList name ∧ '/' ∉ name := by
  obtain ⟨heq, hno⟩ := cutLast?_eq_some h
  refine ⟨?_, hno⟩
  apply String.toList_inj.mp
  rw [heq]
  simp

theorem parent_isPrefix (path : String) : (parent path).toList <+: path.toList := by
  rw [parent, String.toList_ofList, parentChars]
  split
  · rename_i dir name hcut
    rw [(cutLast?_eq_some hcut).1]
    exact List.prefix_append _ _
  · exact List.nil_prefix

private theorem getLast?_segments (path : String) :
    (segments path).getLast? = some (fileName path) := by
  rw [fileName]
  split
  · rename_i dir name hcut
    obtain ⟨heq, hno⟩ := eq_append_of_cutLast? hcut
    have hname : segments (String.ofList name) = [String.ofList name] :=
      segments_of_slash_notMem (by rwa [String.toList_ofList])
    rw [congrArg segments heq, segments_append, hname, List.getLast?_concat]
  · rename_i hcut
    rw [segments_of_slash_notMem (notMem_of_cutLast?_eq_none hcut)]
    rfl

theorem fileName_mem_segments (path : String) : fileName path ∈ segments path :=
  List.mem_of_getLast? (getLast?_segments path)

theorem fileName_append (dir path : String) : fileName (dir ++ "/" ++ path) = fileName path := by
  have hlast := getLast?_segments (dir ++ "/" ++ path)
  rw [segments_append, List.getLast?_append, getLast?_segments, Option.some_or] at hlast
  exact (Option.some.inj hlast).symm

theorem parent_join {name : String} (dir : String) (hname : name ≠ "") (hslash : '/' ∉ name.toList) :
    parent (join dir name) = dir := by
  by_cases hdir : dir = ""
  · have hcut : cutLast? '/' name.toList = none := by
      cases hcut : cutLast? '/' name.toList with
      | none => rfl
      | some parts =>
        have heq := (cutLast?_eq_some hcut).1
        rw [heq] at hslash
        exact absurd (List.mem_append_right _ List.mem_cons_self) hslash
    rw [hdir, join_root_left, parent, parentChars, hcut, String.ofList_nil]
  · have hchars : (dir ++ "/" ++ name).toList = dir.toList ++ '/' :: name.toList := by
      rw [String.toList_append, String.toList_append, List.append_assoc]
      rfl
    rw [join_of_ne_root hdir hname, parent, parentChars, hchars, cutLast?_append hslash,
      String.ofList_toList]

private theorem fileName_of_slash_notMem {name : String} (h : '/' ∉ name.toList) :
    fileName name = name := by
  have hlast := getLast?_segments name
  rw [segments_of_slash_notMem h] at hlast
  exact (Option.some.inj hlast).symm

theorem fileName_join {name : String} (dir : String) (hname : name ≠ "") (hslash : '/' ∉ name.toList) :
    fileName (join dir name) = name := by
  by_cases hdir : dir = ""
  · rw [hdir, join_root_left, fileName_of_slash_notMem hslash]
  · rw [join_of_ne_root hdir hname, fileName_append, fileName_of_slash_notMem hslash]

theorem stem_of_fileName {path name ext : String} (hname : name ≠ "") (hext : '.' ∉ ext.toList)
    (h : fileName path = name ++ "." ++ ext) : stem path = name := by
  have hchars : (name ++ "." ++ ext).toList = name.toList ++ '.' :: ext.toList := by
    rw [String.toList_append, String.toList_append, List.append_assoc]
    rfl
  obtain ⟨c, chars, hcons⟩ := List.exists_cons_of_ne_nil (mt String.toList_eq_nil_iff.mp hname)
  have hcut := cutLast?_append hext name.toList
  rw [hcons] at hcut
  rw [stem, h, hchars, hcons]
  simp only [hcut]
  rw [← hcons, String.ofList_toList]

theorem stem_isPrefix (path : String) : (stem path).toList <+: (fileName path).toList := by
  unfold stem
  dsimp only
  split
  · rename_i c stem ext hcut
    rw [String.toList_ofList, (cutLast?_eq_some hcut).1]
    exact List.prefix_append _ _
  · exact List.prefix_rfl

theorem IsNormal.parent {path : String} (h : IsNormal path) : IsNormal (parent path) := by
  rw [Path.parent, parentChars]
  split
  · rename_i dir name hcut
    have heq := (eq_append_of_cutLast? hcut).1
    have hne : path ≠ "" := by
      rintro rfl
      cases hcut
    apply isNormal_of_isName
    intro segment hsegment
    apply h.isName hne
    rw [heq, segments_append]
    exact List.mem_append_left _ hsegment
  · exact isNormal_root

theorem ancestors_root : ancestors "" = [""] := by
  rw [ancestors, String.toList_empty, ancestorChars, dif_pos rfl, List.map_singleton,
    String.ofList_nil]

theorem ancestors_of_ne_root {dir : String} (h : dir ≠ "") :
    ancestors dir = dir :: ancestors (parent dir) := by
  rw [ancestors, ancestorChars, dif_neg (mt String.toList_eq_nil_iff.mp h), List.map_cons,
    String.ofList_toList, ancestors, parent, String.toList_ofList]

theorem ancestors_induction {P : String → Prop} (hup : ∀ dir, P dir → P (parent dir))
    {dir : String} (h : P dir) : ∀ above ∈ ancestors dir, P above := by
  have hchars (chars : List Char) (hc : P (String.ofList chars)) :
      ∀ above ∈ ancestorChars chars, P (String.ofList above) := by
    induction chars using ancestorChars.induct with
    | case1 =>
      intro above habove
      rw [ancestorChars, dif_pos rfl, List.mem_singleton] at habove
      rwa [habove]
    | case2 chars hne hlt ih =>
      intro above habove
      rw [ancestorChars, dif_neg hne] at habove
      rcases List.mem_cons.mp habove with rfl | habove
      · exact hc
      · apply ih ?_ above habove
        have hparent := hup _ hc
        rwa [parent, String.toList_ofList] at hparent
  intro above habove
  obtain ⟨chars, hmem, rfl⟩ := List.mem_map.mp habove
  exact hchars dir.toList (by rwa [String.ofList_toList]) chars hmem

end RepoGraph.Path
