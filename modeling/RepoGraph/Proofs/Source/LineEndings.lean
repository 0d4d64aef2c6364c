import RepoGraph.Index
import RepoGraph.Manifest.Reader
import RepoGraph.Proofs.Source.Scan

/-!
# Line endings

A carriage return in front of every line feed leaves the lines of a text as they are. So whatever is
read line by line is the same with either ending: hits, declared namespaces, and the manifests that
are no documents.
-/

namespace RepoGraph

namespace Text

/-- The text with a carriage return in front of every line feed. -/
def withReturns (s : List Char) : List Char :=
  s.flatMap fun c => if c = '\n' then ['\r', '\n'] else [c]

private theorem withReturns_append (s t : List Char) :
    withReturns (s ++ t) = withReturns s ++ withReturns t :=
  List.flatMap_append

private theorem withReturns_of_notMem {s : List Char} (h : '\n' ∉ s) : withReturns s = s := by
  induction s with
  | nil => rfl
  | cons c s ih =>
    obtain ⟨hc, hs⟩ := not_or.mp (mt List.mem_cons.mpr h)
    have hcons : withReturns (c :: s) = (if c = '\n' then ['\r', '\n'] else [c]) ++ withReturns s :=
      List.flatMap_cons
    rw [hcons, if_neg (Ne.symm hc), ih hs, List.singleton_append]

private theorem cutReturn_of_notMem {line : List Char} (h : '\r' ∉ line) :
    cutReturn line = line := by
  rw [cutReturn]
  split
  · rename_i hlast
    exact absurd (List.mem_of_getLast? (beq_iff_eq.mp hlast)) h
  · rfl

private theorem cutReturn_concat (line : List Char) : cutReturn (line ++ ['\r']) = line := by
  rw [cutReturn, List.getLast?_concat, if_pos (by rfl), List.dropLast_concat]

private theorem lines_withReturns {s : List Char} (h : '\r' ∉ s) :
    lines (withReturns s) = lines s := by
  by_cases hnewline : '\n' ∈ s
  · obtain ⟨line, below, rfl, hline⟩ := List.eq_append_cons_of_mem hnewline
    rw [List.mem_append, List.mem_cons, not_or, not_or] at h
    obtain ⟨hreturn, -, hbelow⟩ := h
    have hlt : below.length < (line ++ '\n' :: below).length := by
      simp only [List.length_append, List.length_cons]
      omega
    have hwith : withReturns (line ++ '\n' :: below) =
        (line ++ ['\r']) ++ '\n' :: withReturns below := by
      rw [withReturns_append, withReturns_of_notMem hline, List.append_assoc]
      rfl
    have hend : '\n' ∉ line ++ ['\r'] := by simp [hline]
    rw [hwith, lines_cons hend, lines_cons hline, cutReturn_concat, cutReturn_of_notMem hreturn,
      lines_withReturns hbelow]
  · rw [withReturns_of_notMem hnewline]
termination_by s.length

end Text

open Text

def withReturns (content : String) : String := String.ofList (Text.withReturns content.toList)

section LineEndings

variable {content : String} (h : '\r' ∉ content.toList)
include h

private theorem lines_toList_withReturns :
    lines (withReturns content).toList = lines content.toList := by
  rw [withReturns, String.toList_ofList, lines_withReturns h]

private theorem Detector.scan_withReturns (detector : Detector) :
    detector.scan (withReturns content) = detector.scan content := by
  rw [scan_eq, scan_eq, lines_toList_withReturns h]

private theorem codeLines_withReturns (style : CommentStyle) :
    codeLines style (withReturns content).toList = codeLines style content.toList := by
  rw [codeLines, codeLines, lines_toList_withReturns h]

private theorem SourceFile.declaredNamespaces_withReturns (path : String) (language : Language) :
    declaredNamespaces ⟨path, language, withReturns content⟩ =
      declaredNamespaces ⟨path, language, content⟩ := by
  rw [declaredNamespaces, declaredNamespaces]
  cases language <;> simp only [codeLines_withReturns h]

private theorem RepoIndex.addSource_withReturns (index : RepoIndex) (path : String)
    (language : Language) :
    index.addSource ⟨path, language, withReturns content⟩ =
      index.addSource ⟨path, language, content⟩ := by
  rw [addSource, addSource, SourceFile.declaredNamespaces_withReturns h]

private theorem RepoIndex.build_withReturns (before after : List SourceFile) (path : String)
    (language : Language) (manifests : List Manifest) :
    build (before ++ ⟨path, language, withReturns content⟩ :: after) manifests =
      build (before ++ ⟨path, language, content⟩ :: after) manifests := by
  rw [build, build, List.foldl_append, List.foldl_append, List.foldl_cons, List.foldl_cons,
    addSource_withReturns h]

end LineEndings

def ManifestKind.isReadByLine : ManifestKind → Bool
  | requirements | goMod | gemfile => true
  | packageJson | composerJson | cargoToml | pyprojectToml => false

private theorem Manifest.read_withReturns {content : String} (h : '\r' ∉ content.toList)
    {kind : ManifestKind} (hkind : kind.isReadByLine = true) (path : String) :
    read path kind (withReturns content) = read path kind content := by
  have hlines := lines_toList_withReturns h
  cases kind with
  | requirements => simp only [read, requirementLines, hlines]
  | goMod => simp only [read, hlines]
  | gemfile => simp only [read, gemLines, hlines]
  | _ => cases hkind

/-- With a carriage return in front of every line feed a text has the same hits, declares the same
namespaces to an index, and is the same manifest if it is one that is read line by line. -/
theorem reads_same_withReturns {content : String} (h : '\r' ∉ content.toList) :
    (∀ detector : Detector, detector.scan (withReturns content) = detector.scan content) ∧
    (∀ (before after : List SourceFile) (path : String) (language : Language)
        (manifests : List Manifest),
      RepoIndex.build (before ++ ⟨path, language, withReturns content⟩ :: after) manifests =
        RepoIndex.build (before ++ ⟨path, language, content⟩ :: after) manifests) ∧
    ∀ (path : String) (kind : ManifestKind),
      ManifestKind.ofFileName? (Path.fileName path) = some kind → kind.isReadByLine = true →
        Manifest.parse path (withReturns content) = Manifest.parse path content := by
  refine ⟨Detector.scan_withReturns h, RepoIndex.build_withReturns h, ?_⟩
  intro path kind hname hkind
  rw [Manifest.parse, Manifest.parse, hname]
  exact Manifest.read_withReturns h hkind path

theorem reads_same_withReturns_goMod :
    '\r' ∉ "module m.io/m\nrequire (\n\ta.b/c v1\n)\n".toList ∧
      ManifestKind.ofFileName? (Path.fileName "sub/go.mod") = some .goMod ∧
      Manifest.parse "sub/go.mod" "module m.io/m\r\nrequire (\r\n\ta.b/c v1\r\n)\r\n" =
        Manifest.parse "sub/go.mod" "module m.io/m\nrequire (\n\ta.b/c v1\n)\n" := by
  have hreturn : '\r' ∉ "module m.io/m\nrequire (\n\ta.b/c v1\n)\n".toList := by decide
  have hname : ManifestKind.ofFileName? (Path.fileName "sub/go.mod") = some .goMod := by decide
  exact ⟨hreturn, hname, (reads_same_withReturns hreturn).2.2 "sub/go.mod" .goMod hname rfl⟩

end RepoGraph
