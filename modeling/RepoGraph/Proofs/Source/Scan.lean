import RepoGraph.Proofs.Text.Pieces
import RepoGraph.Source.Detector

/-!
# Scanning line by line

A scan is a run over lines. What it finds in two texts, one behind the other, is what it finds in
the first and, from the state that the first leaves, in the second. Where the first leaves nothing
open, the second reads as it does alone.
-/

namespace RepoGraph

open Text

def Hit.behind (count : Nat) (hit : Hit) : Hit := { hit with line := hit.line + count }

namespace Detector

variable {detector : Detector}

/-- What is open after some lines. -/
def stateAfter (detector : Detector) (state : ScanState) (lines : List (List Char)) : ScanState :=
  lines.foldl (fun state line => (detector.readLine state line).1) state

def lineHits (detector : Detector) (state : ScanState) (count : Nat) (line : List Char) :
    List Hit :=
  (detector.readLine state line).2.map fun (token, kind) => ⟨count + 1, String.ofList token, kind⟩

/-- The hits of some lines behind `count` others. -/
def hitsFrom (detector : Detector) : ScanState → Nat → List (List Char) → List Hit
  | _, _, [] => []
  | state, count, line :: lines =>
    detector.lineHits state count line ++
      hitsFrom detector (detector.readLine state line).1 (count + 1) lines

private theorem foldl_next (reading : ScanReading) (lines : List (List Char)) :
    (lines.foldl detector.next reading).state = detector.stateAfter reading.state lines ∧
      (lines.foldl detector.next reading).hits.toList =
        reading.hits.toList ++ detector.hitsFrom reading.state reading.count lines := by
  induction lines generalizing reading with
  | nil => exact ⟨rfl, (List.append_nil _).symm⟩
  | cons line lines ih =>
    obtain ⟨hstate, hhits⟩ := ih (detector.next reading line)
    refine ⟨hstate, ?_⟩
    rw [List.foldl_cons, hhits, hitsFrom, ← List.append_assoc]
    simp [next, lineHits]

theorem read_state (content : List Char) :
    (detector.read content).state = detector.stateAfter .clear (lines content) :=
  (foldl_next {} (lines content)).1

theorem scan_eq (content : String) :
    detector.scan content = detector.hitsFrom .clear 0 (lines content.toList) :=
  (foldl_next {} (lines content.toList)).2

theorem stateAfter_cons (state : ScanState) (line : List Char) (lines : List (List Char)) :
    detector.stateAfter state (line :: lines) =
      detector.stateAfter (detector.readLine state line).1 lines :=
  rfl

theorem stateAfter_append (state : ScanState) (before after : List (List Char)) :
    detector.stateAfter state (before ++ after) =
      detector.stateAfter (detector.stateAfter state before) after :=
  List.foldl_append

theorem hitsFrom_append (state : ScanState) (count : Nat) (before after : List (List Char)) :
    detector.hitsFrom state count (before ++ after) =
      detector.hitsFrom state count before ++
        detector.hitsFrom (detector.stateAfter state before) (count + before.length) after := by
  induction before generalizing state count with
  | nil => rfl
  | cons line before ih =>
    rw [List.cons_append, hitsFrom, ih, hitsFrom, List.append_assoc, List.length_cons,
      Nat.add_assoc, Nat.add_comm 1]
    rfl

theorem hitsFrom_add (state : ScanState) (count more : Nat) (lines : List (List Char)) :
    detector.hitsFrom state (count + more) lines =
      (detector.hitsFrom state count lines).map (Hit.behind more) := by
  induction lines generalizing state count with
  | nil => rfl
  | cons line lines ih =>
    rw [hitsFrom, hitsFrom, List.map_append, ← ih, lineHits, lineHits, List.map_map,
      Nat.add_right_comm]
    rfl

theorem of_mem_hitsFrom {state : ScanState} {count : Nat} {lines : List (List Char)} {hit : Hit}
    (h : hit ∈ detector.hitsFrom state count lines) :
    count < hit.line ∧ hit.line ≤ count + lines.length ∧
      ∃ inImport code, (hit.token.toList, hit.kind) ∈ (detector.readCode inImport code).2 := by
  induction lines generalizing state count with
  | nil => cases h
  | cons line lines ih =>
    rw [hitsFrom] at h
    rcases List.mem_append.mp h with h | h
    · obtain ⟨⟨token, kind⟩, hfound, rfl⟩ := List.mem_map.mp h
      refine ⟨Nat.lt_succ_self count, ?_, ?_⟩
      · change count + 1 ≤ _
        rw [List.length_cons]
        omega
      · rw [readLine] at hfound
        dsimp only at hfound
        split at hfound
        · cases hfound
        · rw [String.toList_ofList]
          exact ⟨_, _, hfound⟩
    · obtain ⟨hlt, hle, hcode⟩ := ih h
      refine ⟨by omega, ?_, hcode⟩
      rw [List.length_cons]
      omega

/-- A text that opens nothing does not bear on what stands behind it. -/
theorem scan_eq_of_clear {above below : List Char}
    (habove : above = [] ∨ above.getLast? = some '\n')
    (hclear : (detector.read above).state = .clear) :
    detector.scan (String.ofList (above ++ below)) = detector.hitsFrom .clear 0 (lines above) ++
      detector.hitsFrom .clear (lines above).length (lines below) := by
  rw [read_state] at hclear
  rw [scan_eq, String.toList_ofList, lines_append habove, hitsFrom_append, hclear, Nat.zero_add]

/-- Of three texts in a row, the hits on the lines of the second one. -/
theorem filter_hitsFrom_append (state state' state'' : ScanState)
    (above region below : List (List Char)) :
    (detector.hitsFrom state 0 above ++ (detector.hitsFrom state' above.length region ++
        detector.hitsFrom state'' (above.length + region.length) below)).filter (fun hit =>
          above.length < hit.line ∧ hit.line ≤ above.length + region.length) =
      detector.hitsFrom state' above.length region := by
  have habove : ∀ hit ∈ detector.hitsFrom state 0 above, hit.line ≤ above.length := by
    intro hit hhit
    have hle := (of_mem_hitsFrom hhit).2.1
    rwa [Nat.zero_add] at hle
  have hregion : ∀ hit ∈ detector.hitsFrom state' above.length region,
      above.length < hit.line ∧ hit.line ≤ above.length + region.length := by
    intro hit hhit
    obtain ⟨hlt, hle, -⟩ := of_mem_hitsFrom hhit
    exact ⟨hlt, hle⟩
  have hbelow : ∀ hit ∈ detector.hitsFrom state'' (above.length + region.length) below,
      above.length + region.length < hit.line := fun hit hhit => (of_mem_hitsFrom hhit).1
  rw [List.filter_append, List.filter_append, List.filter_eq_nil_iff.mpr,
    List.filter_eq_self.mpr, List.filter_eq_nil_iff.mpr, List.append_nil, List.nil_append]
  · intro hit hhit
    have := hbelow hit hhit
    simp only [decide_eq_true_eq]
    omega
  · intro hit hhit
    exact decide_eq_true (hregion hit hhit)
  · intro hit hhit
    have := habove hit hhit
    simp only [decide_eq_true_eq]
    omega

/-- Behind a text that leaves nothing open a text has the hits that it has alone, on later lines.
So the hits on whole lines behind it depend on these lines only. -/
theorem scan_append {above : String}
    (habove : above.toList = [] ∨ above.toList.getLast? = some '\n')
    (hclear : (detector.read above.toList).state = .clear) :
    (∀ below : String, detector.scan (above ++ below) = detector.scan above ++
      (detector.scan below).map (Hit.behind (lines above.toList).length)) ∧
    ∀ region : String, (region.toList = [] ∨ region.toList.getLast? = some '\n') →
      ∀ below : String, (detector.scan (above ++ region ++ below)).filter (fun hit =>
          (lines above.toList).length < hit.line ∧
            hit.line ≤ (lines above.toList).length + (lines region.toList).length) =
        (detector.scan region).map (Hit.behind (lines above.toList).length) := by
  rw [read_state] at hclear
  have hbehind : ∀ texts : List (List Char),
      detector.hitsFrom .clear (lines above.toList).length texts =
        (detector.hitsFrom .clear 0 texts).map (Hit.behind (lines above.toList).length) := by
    intro texts
    rw [← hitsFrom_add, Nat.zero_add]
  constructor
  · intro below
    rw [scan_eq, scan_eq, scan_eq, String.toList_append, lines_append habove, hitsFrom_append,
      hclear, Nat.zero_add, hbehind]
  · intro region hregion below
    rw [scan_eq, scan_eq, String.toList_append, String.toList_append, List.append_assoc,
      lines_append habove, lines_append hregion, hitsFrom_append, hclear, hitsFrom_append,
      Nat.zero_add, filter_hitsFrom_append, hbehind]

/-- An import block that is closed again is such a text. -/
theorem scan_append_closedImports :
    (go.read "import (\n\"a\"\n)\n".toList).state = .clear ∧
      ∀ below : String, go.scan ("import (\n\"a\"\n)\n" ++ below) =
        go.scan "import (\n\"a\"\n)\n" ++ (go.scan below).map (Hit.behind 3) := by
  have hclear : (go.read "import (\n\"a\"\n)\n".toList).state = .clear := by decide +kernel
  exact ⟨hclear, (scan_append (Or.inr (by decide)) hclear).1⟩

end Detector

theorem SourceFile.of_mem_references {file : SourceFile} {reference : Reference}
    (h : reference ∈ file.references) :
    reference.fromFile = file.path ∧ ∃ inImport code, (reference.token.toList, reference.kind) ∈
      ((Detector.ofLanguage file.language).readCode inImport code).2 := by
  obtain ⟨hit, hhit, rfl⟩ := List.mem_map.mp h
  have hscan := (List.mem_filter.mp hhit).1
  rw [Detector.scan_eq] at hscan
  exact ⟨rfl, (Detector.of_mem_hitsFrom hscan).2.2⟩

end RepoGraph
