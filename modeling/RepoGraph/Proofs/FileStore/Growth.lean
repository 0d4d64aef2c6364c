import RepoGraph.FileStore.Basic
import RepoGraph.Proofs.Text.Utf8

/-!
# Growing file stores

A path leads through directories, so it leads to the same place as long as they are kept. Making
directories keeps everything that is there. Writing a file keeps the directories, and what was
written is what is read.
-/

namespace RepoGraph.FileStore

theorem entryAt_put_self {place : Place} (hplace : place ≠ []) (store : FileStore)
    (entry : FileEntry) : (store.put place entry).entryAt place = some entry := by
  cases place with
  | nil => exact absurd rfl hplace
  | cons name outer => simp [entryAt, put]

theorem entryAt_put_of_ne {place other : Place} (hne : other ≠ place) (store : FileStore)
    (entry : FileEntry) : (store.put place entry).entryAt other = store.entryAt other := by
  cases other with
  | nil => rfl
  | cons name outer => simp [entryAt, put, Std.HashMap.getElem?_insert, Ne.symm hne]

/-- A later store with the working directory and all directories of an earlier one. -/
structure KeepsDirectories (store later : FileStore) : Prop where
  here : later.here = store.here
  directory : ∀ place, store.entryAt place = some .directory →
    later.entryAt place = some .directory

/-- A later store with the working directory and everything of an earlier one. -/
structure Extends (store later : FileStore) : Prop where
  here : later.here = store.here
  entry : ∀ place found, store.entryAt place = some found → later.entryAt place = some found

private theorem Extends.keepsDirectories {store later : FileStore} (h : Extends store later) :
    KeepsDirectories store later where
  here := h.here
  directory place := h.entry place .directory

theorem Extends.refl (store : FileStore) : Extends store store where
  here := rfl
  entry _ _ hfound := hfound

theorem Extends.trans {first second third : FileStore} (h₁ : Extends first second)
    (h₂ : Extends second third) : Extends first third where
  here := h₂.here.trans h₁.here
  entry place found hfound := h₂.entry place found (h₁.entry place found hfound)

section Paths

variable {store later : FileStore}

def IsEntryName (name : String) : Prop :=
  name ≠ "" ∧ name ≠ "." ∧ name ≠ ".." ∧ name.utf8ByteSize ≤ nameLimit

instance (name : String) : Decidable (IsEntryName name) := inferInstanceAs (Decidable (_ ∧ _))

theorem follow_cons {place : Place} {name : String}
    (hplace : store.entryAt place = some .directory) (hname : IsEntryName name)
    (names : List String) :
    store.follow place (name :: names) = store.follow (name :: place) names := by
  obtain ⟨hempty, hdot, hup, hlong⟩ := hname
  rw [follow, hplace]
  dsimp only
  rw [if_neg (not_or.mpr ⟨hempty, hdot⟩), if_neg hup, if_neg (Nat.not_lt.mpr hlong)]

def IsRelativePath (path : String) : Prop :=
  path.isEmpty = false ∧ path.toList.contains '\x00' = false ∧ path.utf8ByteSize ≤ pathLimit ∧
    DiskPath.isAbsolute path = false

instance (path : String) : Decidable (IsRelativePath path) := inferInstanceAs (Decidable (_ ∧ _))

theorem locateSegments_eq {path : String} (hpath : IsRelativePath path) (segments : List String) :
    store.locateSegments path segments = store.follow store.here segments := by
  obtain ⟨hempty, hname, hlong, hrelative⟩ := hpath
  rw [locateSegments, hempty, hname, hrelative, if_neg Bool.false_ne_true,
    if_neg Bool.false_ne_true, if_neg (Nat.not_lt.mpr hlong), if_neg Bool.false_ne_true]

theorem KeepsDirectories.follow (h : KeepsDirectories store later) {place found : Place}
    {names : List String} (hfollow : store.follow place names = .ok found) :
    later.follow place names = .ok found := by
  induction names generalizing place with
  | nil => exact hfollow
  | cons name names ih =>
    rw [FileStore.follow] at hfollow ⊢
    cases hentry : store.entryAt place with
    | none =>
      rw [hentry] at hfollow
      cases hfollow
    | some entry =>
      cases entry with
      | file content executable =>
        rw [hentry] at hfollow
        cases hfollow
      | directory =>
        rw [hentry] at hfollow
        rw [h.directory place hentry]
        dsimp only at hfollow ⊢
        by_cases hskip : name = "" ∨ name = "."
        · rw [if_pos hskip] at hfollow ⊢
          exact ih hfollow
        rw [if_neg hskip] at hfollow ⊢
        by_cases hup : name = ".."
        · rw [if_pos hup] at hfollow ⊢
          exact ih hfollow
        rw [if_neg hup] at hfollow ⊢
        by_cases hlong : nameLimit < name.utf8ByteSize
        · rw [if_pos hlong] at hfollow
          cases hfollow
        · rw [if_neg hlong] at hfollow ⊢
          exact ih hfollow

theorem KeepsDirectories.locateSegments (h : KeepsDirectories store later) {path : String}
    {segments : List String} {found : Place}
    (hlocate : store.locateSegments path segments = .ok found) :
    later.locateSegments path segments = .ok found := by
  rw [FileStore.locateSegments] at hlocate ⊢
  split at hlocate
  · cases hlocate
  · split at hlocate
    · cases hlocate
    · split at hlocate
      · cases hlocate
      · rename_i hempty hname hlong
        rw [if_neg hempty, if_neg hname, if_neg hlong, h.here]
        exact h.follow hlocate

theorem entry_eq_ok_iff {path : String} {found : FileEntry} :
    store.entry path = .ok found ↔
      ∃ place, store.locate path = .ok place ∧ store.entryAt place = some found := by
  rw [entry]
  cases hlocate : store.locate path with
  | error error => simp [bind, Except.bind]
  | ok place =>
    simp only [bind, Except.bind]
    cases hentry : store.entryAt place with
    | none => simp [hentry]
    | some other => simp [hentry]

theorem contains_of_entry {path : String} {found : FileEntry} (h : store.entry path = .ok found) :
    store.contains path = true := by
  rw [contains, h]
  rfl

private theorem Extends.entry_eq_ok (h : Extends store later) {path : String} {found : FileEntry}
    (hentry : store.entry path = .ok found) : later.entry path = .ok found := by
  rw [entry_eq_ok_iff] at hentry ⊢
  obtain ⟨place, hlocate, hfound⟩ := hentry
  exact ⟨place, h.keepsDirectories.locateSegments hlocate, h.entry place found hfound⟩

private theorem read_eq_ok_iff {path : String} {content : ByteArray} :
    store.read path = .ok content ↔
      ∃ executable, store.entry path = .ok (.file content executable) := by
  rw [read]
  cases store.entry path with
  | error error => simp [bind, Except.bind]
  | ok found => cases found <;> simp [bind, Except.bind]

theorem Extends.read_eq_ok (h : Extends store later) {path : String} {content : ByteArray}
    (hread : store.read path = .ok content) : later.read path = .ok content := by
  rw [read_eq_ok_iff] at hread ⊢
  obtain ⟨executable, hentry⟩ := hread
  exact ⟨executable, h.entry_eq_ok hentry⟩

end Paths

private theorem extends_put {store : FileStore} {place : Place} (hnew : store.entryAt place = none)
    (entry : FileEntry) : Extends store (store.put place entry) where
  here := rfl
  entry other found hfound := by
    rw [entryAt_put_of_ne _ store entry, hfound]
    rintro rfl
    rw [hnew] at hfound
    cases hfound

private theorem makeDirectory_extends {store later : FileStore} {path : String}
    (h : store.makeDirectory path = .ok later) : Extends store later := by
  rw [makeDirectory] at h
  cases hlocate : store.locateSegments path (solidSegments path) with
  | error error =>
    rw [hlocate] at h
    cases h
  | ok place =>
    simp only [hlocate, bind, Except.bind] at h
    cases hentry : store.entryAt place with
    | none =>
      rw [hentry] at h
      cases h
      exact extends_put hentry .directory
    | some found =>
      rw [hentry] at h
      cases h

private theorem keepDirectory_extends {store later : FileStore} {path : String}
    (h : store.keepDirectory path = .ok later) : Extends store later := by
  rw [keepDirectory] at h
  split at h
  · rename_i hmade
    cases h
    exact makeDirectory_extends hmade
  · split at h
    · cases h
      exact Extends.refl store
    · cases h

theorem makeChain_extends {store later : FileStore} {paths : List String}
    (h : store.makeChain paths = .ok later) : Extends store later := by
  induction paths generalizing later with
  | nil =>
    cases h
    exact Extends.refl store
  | cons path parents ih =>
    rw [makeChain] at h
    split at h
    · cases hparents : store.makeChain parents with
      | error error =>
        rw [hparents] at h
        cases h
      | ok roomy =>
        rw [hparents] at h
        exact (ih hparents).trans (keepDirectory_extends h)
    · exact keepDirectory_extends h

private theorem entry_write {store written : FileStore} {path : String} {content : ByteArray}
    (h : store.write path content = .ok written) :
    ∃ executable, written.entry path = .ok (.file content executable) := by
  rw [write] at h
  dsimp only at h
  cases hlocate : store.locateSegments path (solidSegments path) with
  | error error =>
    rw [hlocate] at h
    cases h
  | ok place =>
    rw [hlocate] at h
    by_cases hsolid : solidSegments path = Path.segments path
    · rw [hsolid] at h hlocate
      have hput : ∃ executable, store.entryAt place ≠ some .directory ∧
          written = store.put place (.file content executable) := by
        cases hentry : store.entryAt place with
        | none =>
          simp only [bind, Except.bind, hentry, ne_eq, not_true_eq_false, if_false] at h
          cases h
          exact ⟨false, by simp, rfl⟩
        | some found =>
          cases found with
          | directory =>
            simp only [bind, Except.bind, hentry, ne_eq, not_true_eq_false, if_false] at h
            cases h
          | file before executable =>
            simp only [bind, Except.bind, hentry, ne_eq, not_true_eq_false, if_false] at h
            cases h
            exact ⟨executable, by simp, rfl⟩
      obtain ⟨executable, hplace, rfl⟩ := hput
      have hkeep : KeepsDirectories store (store.put place (.file content executable)) := by
        refine ⟨rfl, ?_⟩
        intro other hother
        rw [entryAt_put_of_ne _ store _, hother]
        rintro rfl
        exact hplace hother
      have hroot : place ≠ [] := by
        rintro rfl
        exact hplace rfl
      refine ⟨executable, entry_eq_ok_iff.mpr ⟨place, hkeep.locateSegments hlocate, ?_⟩⟩
      exact entryAt_put_self hroot store _
    · simp only [bind, Except.bind, ne_eq, hsolid, not_false_eq_true, if_true] at h
      cases h

theorem contains_write {store written : FileStore} {path : String} {content : ByteArray}
    (h : store.write path content = .ok written) : written.contains path = true := by
  obtain ⟨executable, hentry⟩ := entry_write h
  exact contains_of_entry hentry

theorem readText_of_entry {store : FileStore} {path text : String} {executable : Bool}
    (h : store.entry path = .ok (.file text.toUTF8 executable)) :
    store.readText path = .ok text := by
  have hread : store.read path = .ok text.toUTF8 := read_eq_ok_iff.mpr ⟨executable, h⟩
  rw [readText, hread]
  simp only [bind, Except.bind, Text.decode?_toUTF8, String.ofList_toList]

theorem readText_write {store written : FileStore} {path text : String}
    (h : store.write path text.toUTF8 = .ok written) : written.readText path = .ok text := by
  obtain ⟨executable, hentry⟩ := entry_write h
  exact readText_of_entry hentry

end RepoGraph.FileStore
