import RepoGraph.Proofs.FileStore.Growth
import RepoGraph.Proofs.Settings.Document
import RepoGraph.Settings.Loader

/-!
# Saved settings

Saving writes the settings' own document, so the file loads as the same settings. Settings with a
number that no document holds are refused before the file is touched.
-/

namespace RepoGraph.Settings

private theorem render?_eq_some_iff {settings : Settings} {text : String} :
    settings.render? = some text ↔
      (∀ n ∈ settings.numbers, n ≤ integerLimit) ∧ text = String.ofList settings.write := by
  rw [render?]
  by_cases hnumbers : ∀ n ∈ settings.numbers, n ≤ integerLimit
  · have hall : settings.numbers.all (· ≤ integerLimit) = true := by simpa using hnumbers
    simp only [hall, if_true, Option.some.injEq, eq_comm, and_iff_right hnumbers]
  · have hall : ¬ settings.numbers.all (· ≤ integerLimit) = true := by simpa using hnumbers
    simp only [if_neg hall, hnumbers, false_and, reduceCtorEq]

private theorem makeRoom_extends {store roomy : FileStore} {path : String}
    (h : makeRoom store path = .ok roomy) : store.Extends roomy := by
  rw [makeRoom] at h
  split at h
  · cases h
    exact FileStore.Extends.refl store
  · split at h
    · cases h
      exact FileStore.Extends.refl store
    · rename_i parent _ _ _
      cases hmade : store.makeDirectories parent with
      | error error =>
        rw [hmade] at h
        cases h
      | ok later =>
        rw [hmade] at h
        cases h
        exact FileStore.makeChain_extends hmade

section Saving

variable {store roomy written : FileStore} {path : String} {settings : Settings}

private theorem save_eq_ok_iff :
    save store path settings = (written, .ok ()) ↔
      ∃ roomy, makeRoom store path = .ok roomy ∧ (∀ n ∈ settings.numbers, n ≤ integerLimit) ∧
        roomy.write path (String.ofList settings.write).toUTF8 = .ok written := by
  rw [save]
  cases hroom : makeRoom store path with
  | error error => simp
  | ok roomy =>
    cases hrender : settings.render? with
    | none =>
      have hnumbers : ¬ ∀ n ∈ settings.numbers, n ≤ integerLimit := by
        intro hnumbers
        have hsome := render?_eq_some_iff.mpr ⟨hnumbers, rfl⟩
        rw [hrender] at hsome
        cases hsome
      simp [hnumbers]
    | some text =>
      obtain ⟨hnumbers, rfl⟩ := render?_eq_some_iff.mp hrender
      dsimp only
      generalize (String.ofList settings.write).toUTF8 = content
      cases hwritten : roomy.write path content with
      | error error => simp [hwritten]
      | ok later => simpa [hwritten] using fun _ => hnumbers

private theorem save_of_not_numbers (hroom : makeRoom store path = .ok roomy)
    (hnumbers : ¬ ∀ n ∈ settings.numbers, n ≤ integerLimit) :
    save store path settings = (roomy, .error .unwritable) := by
  have hrender : settings.render? = none := by
    rw [Option.eq_none_iff_forall_ne_some]
    intro text htext
    exact hnumbers (render?_eq_some_iff.mp htext).1
  rw [save, hroom]
  dsimp only
  rw [hrender]

/-- What was saved without an error is what the file loads as. -/
theorem readFile_save (h : save store path settings = (written, .ok ())) :
    written.contains path = true ∧ readFile written path = .ok settings := by
  obtain ⟨roomy, _, hnumbers, hwritten⟩ := save_eq_ok_iff.mp h
  refine ⟨FileStore.contains_write hwritten, ?_⟩
  rw [readFile, FileStore.readText_write hwritten]
  dsimp only
  rw [parse?_write hnumbers]

end Saving

/-- Where the directory can be made and the file written, settings whose numbers a document holds
are saved and load as they were; others are refused, and a file that is there keeps its bytes. -/
theorem loadLocal_save {store roomy : FileStore} {root : String} (settings : Settings)
    (hroom : makeRoom store (localPath root) = .ok roomy)
    (hwrite : ∀ content, ∃ written, roomy.write (localPath root) content = .ok written) :
    ((∀ n ∈ settings.numbers, n ≤ integerLimit) →
      ∃ written, save store (localPath root) settings = (written, .ok ()) ∧
        loadLocal written root = .ok (some settings)) ∧
    ((¬ ∀ n ∈ settings.numbers, n ≤ integerLimit) →
      save store (localPath root) settings = (roomy, .error .unwritable) ∧
        ∀ content, store.read (localPath root) = .ok content →
          roomy.read (localPath root) = .ok content) := by
  constructor
  · intro hnumbers
    obtain ⟨written, hwritten⟩ := hwrite (String.ofList settings.write).toUTF8
    have hsave := save_eq_ok_iff.mpr ⟨roomy, hroom, hnumbers, hwritten⟩
    obtain ⟨hthere, hload⟩ := readFile_save hsave
    refine ⟨written, hsave, ?_⟩
    rw [loadLocal, readFile?, if_pos hthere, hload]
    rfl
  · intro hnumbers
    refine ⟨save_of_not_numbers hroom hnumbers, ?_⟩
    intro content hread
    exact (makeRoom_extends hroom).read_eq_ok hread

def stocked : FileStore :=
  (({} : FileStore).put [".archgraph"] .directory).put ["config.toml", ".archgraph"]
    (.file "[graph]".toUTF8 false)

private theorem entryAt_stocked_directory : stocked.entryAt [".archgraph"] = some .directory := by
  rw [stocked, FileStore.entryAt_put_of_ne (by decide), FileStore.entryAt_put_self (by decide)]

private theorem entryAt_stocked_file :
    stocked.entryAt ["config.toml", ".archgraph"] = some (.file "[graph]".toUTF8 false) := by
  rw [stocked, FileStore.entryAt_put_self (by decide)]

private theorem locate_stocked_directory : stocked.locate ".archgraph" = .ok [".archgraph"] := by
  have hsegments : Path.segments ".archgraph" = [".archgraph"] := by decide
  rw [FileStore.locate, FileStore.locateSegments_eq (by decide), hsegments,
    FileStore.follow_cons rfl (by decide)]
  rfl

private theorem locate_stocked_file :
    stocked.locateSegments (localPath "") (Path.segments (localPath "")) =
      .ok ["config.toml", ".archgraph"] := by
  have hsegments : Path.segments (localPath "") = [".archgraph", "config.toml"] := by decide
  rw [FileStore.locateSegments_eq (by decide), hsegments, FileStore.follow_cons rfl (by decide)]
  exact FileStore.follow_cons entryAt_stocked_directory (by decide) []

private theorem makeRoom_stocked : makeRoom stocked (localPath "") = .ok stocked := by
  have hparents : DiskPath.parents (localPath "") = [".archgraph"] := by decide
  have hthere : stocked.contains ".archgraph" = true :=
    FileStore.contains_of_entry
      (FileStore.entry_eq_ok_iff.mpr ⟨_, locate_stocked_directory, entryAt_stocked_directory⟩)
  rw [makeRoom, hparents]
  dsimp only
  rw [if_pos hthere]

private theorem write_stocked (content : ByteArray) :
    stocked.write (localPath "") content =
      .ok (stocked.put ["config.toml", ".archgraph"] (.file content false)) := by
  have hsolid : FileStore.solidSegments (localPath "") = Path.segments (localPath "") := by decide
  rw [FileStore.write, hsolid]
  dsimp only
  rw [locate_stocked_file]
  simp only [bind, Except.bind, entryAt_stocked_file, ne_eq, not_true_eq_false, if_false]

theorem loadLocal_save_stocked :
    makeRoom stocked (localPath "") = .ok stocked ∧
    (∀ content, ∃ written, stocked.write (localPath "") content = .ok written) ∧
    (∃ written, save stocked (localPath "")
        { analysis := { excludePatterns := ["a\"b\\c", "\n\"\"\"\t"] } } = (written, .ok ()) ∧
      loadLocal written "" =
        .ok (some { analysis := { excludePatterns := ["a\"b\\c", "\n\"\"\"\t"] } })) ∧
    save stocked (localPath "") { analysis := { maxFiles := 0x8000000000000000 } } =
      (stocked, .error .unwritable) := by
  have hwrite (content : ByteArray) :
      ∃ written, stocked.write (localPath "") content = .ok written :=
    ⟨_, write_stocked content⟩
  refine ⟨makeRoom_stocked, hwrite, ?_, ?_⟩
  · exact (loadLocal_save _ makeRoom_stocked hwrite).1 (by decide)
  · exact ((loadLocal_save _ makeRoom_stocked hwrite).2 (by decide)).1

end RepoGraph.Settings
