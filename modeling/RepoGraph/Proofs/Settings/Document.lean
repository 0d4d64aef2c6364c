import RepoGraph.Proofs.Toml.Tables
import RepoGraph.Proofs.Toml.Values
import RepoGraph.Settings.Toml

/-!
# Written settings

The lines of a settings file are read back as the statements that were written, and the settings
from them. A document holds any texts, but no number above its limit.
-/

namespace RepoGraph

open Text Toml

namespace Toml

def IsBareKey (key : String) : Prop := key.toList ≠ [] ∧ key.toList.all isKeyChar = true

instance (key : String) : Decidable (IsBareKey key) := inferInstanceAs (Decidable (_ ∧ _))

private theorem isKeyChar_ne {c d : Char} (hc : isKeyChar c = true) (hd : isKeyChar d = false) :
    c ≠ d := by
  rintro rfl
  rw [hc] at hd
  cases hd

private theorem IsBareKey.forall_isKeyChar {key : String} (hkey : IsBareKey key) :
    ∀ c ∈ key.toList, isKeyChar c = true :=
  List.all_eq_true.mp hkey.2

private theorem IsBareKey.exists_cons {key : String} (hkey : IsBareKey key) :
    ∃ c more, key.toList = c :: more ∧ ∀ d, isKeyChar d = false → c ≠ d := by
  cases hchars : key.toList with
  | nil => exact absurd hchars hkey.1
  | cons c more =>
    refine ⟨c, more, rfl, ?_⟩
    intro d hd
    apply isKeyChar_ne _ hd
    apply hkey.forall_isKeyChar
    rw [hchars]
    exact List.mem_cons_self

private theorem keyPart?_bare {key : String} (hkey : IsBareKey key) {rest : List Char}
    (hrest : ∀ c ∈ rest.head?, isKeyChar c = false) :
    keyPart? (key.toList ++ rest) = some (key, rest) := by
  have htake : (key.toList ++ rest).takeWhile isKeyChar = key.toList := by
    rw [List.takeWhile_append_of_pos hkey.forall_isKeyChar]
    cases rest with
    | nil => simp
    | cons c rest => simp [hrest c rfl]
  have hdrop : (key.toList ++ rest).dropWhile isKeyChar = rest := by
    rw [List.dropWhile_append_of_pos hkey.forall_isKeyChar]
    cases rest with
    | nil => rfl
    | cons c rest => simp [hrest c rfl]
  obtain ⟨c, more, hchars, hc⟩ := hkey.exists_cons
  unfold keyPart?
  split
  · rename_i heq
    rw [hchars, List.cons_append] at heq
    exact absurd (List.cons.inj heq).1 (hc '"' (by decide))
  · rename_i heq
    rw [hchars, List.cons_append] at heq
    exact absurd (List.cons.inj heq).1 (hc '\'' (by decide))
  · rw [htake, hdrop]
    have hpart : String.ofList (c :: more) = key := by
      rw [← hchars, String.ofList_toList]
    rw [hchars]
    exact congrArg (fun part => some (part, rest)) hpart

private theorem skipGap_bare {key : String} (hkey : IsBareKey key) (rest : List Char) :
    skipGap (key.toList ++ rest) = key.toList ++ rest := by
  obtain ⟨c, more, hchars, hc⟩ := hkey.exists_cons
  have hgap : isGap c = false := by
    simp [isGap, hc ' ' (by decide), hc '\t' (by decide)]
  simp [hchars, skipGap, hgap]

private theorem key?_bare {key : String} (hkey : IsBareKey key) {rest : List Char}
    (hrest : ∀ c ∈ rest.head?, isKeyChar c = false) (hdot : (skipGap rest).head? ≠ some '.') :
    key? (key.toList ++ rest) = some ([key], skipGap rest) := by
  have hfrom : keyFrom? [] (key.toList ++ rest) = some ([key], skipGap rest) := by
    have hpart := keyPart?_bare hkey hrest
    rw [← skipGap_bare hkey] at hpart
    rw [keyFrom?]
    split
    · rename_i hnone
      rw [hpart] at hnone
      cases hnone
    · rename_i hsome
      rw [hpart] at hsome
      cases hsome
      split
      · rename_i heq
        rw [heq] at hdot
        exact absurd rfl hdot
      · rfl
  rw [key?, hfrom]
  rfl

private theorem assignedKey?_bare {key : String} (hkey : IsBareKey key) (rest : List Char) :
    assignedKey? (key.toList ++ ' ' :: '=' :: rest) = some (([], key), rest) := by
  have hsign : key? (key.toList ++ ' ' :: '=' :: rest) = some ([key], '=' :: rest) :=
    key?_bare hkey (by rintro c ⟨⟩; rfl) (by simp [skipGap, isGap])
  simp [assignedKey?, hsign, splitKey?, stripStart?]

private theorem lineEnd?_newline (s : List Char) : lineEnd? ('\n' :: s) = some s := rfl

private theorem statementsFrom?_nil (done : List TomlStatement) :
    statementsFrom? done [] = some done.reverse := by
  rw [statementsFrom?]
  rfl

private theorem statementsFrom?_newline (done : List TomlStatement) (s : List Char) :
    statementsFrom? done ('\n' :: s) = statementsFrom? done s := by
  rw [statementsFrom?]
  rfl

private theorem statementsFrom?_statement {c : Char} {s rest : List Char}
    {statement : TomlStatement}
    (hgap : isGap c = false) (hcomment : c ≠ '#') (hnewline : c ≠ '\n') (hreturn : c ≠ '\r')
    (h : statement? (c :: s) = some (statement, rest)) (done : List TomlStatement) :
    statementsFrom? done (c :: s) = statementsFrom? (statement :: done) rest := by
  have hskip : skipGap (c :: s) = c :: s := by simp [skipGap, hgap]
  rw [statementsFrom?]
  split
  · rename_i heq
    rw [hskip] at heq
    cases heq
  · rename_i heq
    rw [hskip] at heq
    exact absurd (List.cons.inj heq).1 hcomment
  · split
    · rename_i hn
      rw [hskip, newline?_cons_eq_none hnewline hreturn] at hn
      cases hn
    · split
      · rename_i hstatement
        rw [hskip, h] at hstatement
        cases hstatement
        rfl
      · rename_i hstatement
        rw [hskip, h] at hstatement
        cases hstatement

def plainStatements (groups : List (String × List (String × TomlValue))) : List TomlStatement :=
  groups.flatMap fun group =>
    .header ⟨[], group.1, false⟩ :: (TomlEntries.plain group.2).map .assign

private theorem sections_plain (groups : List (String × List (String × TomlValue))) :
    sections (plainStatements groups) = ([], groups.map TomlSection.plain) := by
  have hassign (assignments : List TomlAssignment) (statements : List TomlStatement) :
      sections (assignments.map .assign ++ statements) =
        (assignments ++ (sections statements).1, (sections statements).2) := by
    induction assignments with
    | nil => rfl
    | cons assignment assignments ih =>
      rw [List.map_cons, List.cons_append, sections, List.foldr_cons, ← sections, ih]
      rfl
  induction groups with
  | nil => rfl
  | cons group groups ih =>
    have hgroup : plainStatements (group :: groups) = .header ⟨[], group.1, false⟩ ::
        ((TomlEntries.plain group.2).map .assign ++ plainStatements groups) := rfl
    rw [hgroup, sections, List.foldr_cons, ← sections, hassign, ih]
    simp [TomlSection.plain]

end Toml

namespace Settings

private theorem statement?_header {key : String} (hkey : IsBareKey key) (s : List Char) :
    statement? (writeHeader key ++ s) = some (.header ⟨[], key, false⟩, s) := by
  have hclose : key? (key.toList ++ ']' :: '\n' :: s) = some ([key], ']' :: '\n' :: s) :=
    key?_bare hkey (by rintro c ⟨⟩; rfl) (by simp [skipGap, isGap])
  have hheader : header? false (key.toList ++ ']' :: '\n' :: s) =
      some (.header ⟨[], key, false⟩, s) := by
    simp [header?, hclose, splitKey?, stripStart?, lineEnd?_newline]
  obtain ⟨c, more, hchars, hc⟩ := hkey.exists_cons
  have hwritten : writeHeader key ++ s = '[' :: (key.toList ++ ']' :: '\n' :: s) := by
    simp [writeHeader]
  rw [hwritten]
  unfold statement?
  split
  · rename_i heq
    rw [hchars] at heq
    cases heq
    exact absurd rfl (hc '[' (by decide))
  · rename_i heq
    cases heq
    exact hheader
  · rename_i hopen
    exact absurd rfl (hopen _)

private theorem statementsFrom?_header {key : String} (hkey : IsBareKey key)
    (done : List TomlStatement) (s : List Char) :
    statementsFrom? done (writeHeader key ++ s) =
      statementsFrom? (.header ⟨[], key, false⟩ :: done) s :=
  statementsFrom?_statement (by decide) (by decide) (by decide) (by decide)
    (statement?_header hkey s) done

private theorem statement?_entry {key : String} (hkey : IsBareKey key) {written s : List Char}
    {v : TomlValue} (hvalue : value? (' ' :: (written ++ '\n' :: s)) = some (v, '\n' :: s)) :
    statement? (writeEntry key written ++ s) = some (.assign ⟨[], key, v⟩, s) := by
  have hassign : assignment? (key.toList ++ ' ' :: '=' :: ' ' :: (written ++ '\n' :: s)) =
      some (.assign ⟨[], key, v⟩, s) := by
    simp [assignment?, assignedKey?_bare hkey, hvalue, lineEnd?_newline]
  obtain ⟨c, more, hchars, hc⟩ := hkey.exists_cons
  have hwritten : writeEntry key written ++ s =
      key.toList ++ ' ' :: '=' :: ' ' :: (written ++ '\n' :: s) := by
    simp [writeEntry]
  rw [hwritten]
  unfold statement?
  split
  · rename_i heq
    rw [hchars] at heq
    exact absurd (List.cons.inj heq).1 (hc '[' (by decide))
  · rename_i heq
    rw [hchars] at heq
    exact absurd (List.cons.inj heq).1 (hc '[' (by decide))
  · exact hassign

private theorem statementsFrom?_entry {key : String} (hkey : IsBareKey key) {written s : List Char}
    {v : TomlValue} (hvalue : value? (' ' :: (written ++ '\n' :: s)) = some (v, '\n' :: s))
    (done : List TomlStatement) :
    statementsFrom? done (writeEntry key written ++ s) =
      statementsFrom? (.assign ⟨[], key, v⟩ :: done) s := by
  have hstatement := statement?_entry hkey hvalue
  obtain ⟨c, more, hchars, hc⟩ := hkey.exists_cons
  have hstart : writeEntry key written ++ s =
      c :: (more ++ " = ".toList ++ written ++ '\n' :: s) := by
    simp [writeEntry, hchars]
  have hgap : isGap c = false := by
    simp [isGap, hc ' ' (by decide), hc '\t' (by decide)]
  rw [hstart] at hstatement ⊢
  exact statementsFrom?_statement hgap (hc '#' (by decide)) (hc '\n' (by decide))
    (hc '\r' (by decide)) hstatement done

private theorem statementsFrom?_number {key : String} (hkey : IsBareKey key) {n : Nat}
    (hn : n ≤ integerLimit) (done : List TomlStatement) (s : List Char) :
    statementsFrom? done (writeNumber key n ++ s) =
      statementsFrom? (.assign ⟨[], key, .integer n⟩ :: done) s :=
  statementsFrom?_entry hkey (value?_toDigits hn s) done

end Settings

def AnalysisSettings.fields (settings : AnalysisSettings) : List (String × TomlValue) :=
  [("max_files", .integer settings.maxFiles.toNat),
    ("max_files_per_dir", .integer settings.maxFilesPerDir.toNat),
    ("max_file_size_kb", .integer settings.maxFileSizeKb.toNat),
    ("exclude_patterns", .array (settings.excludePatterns.map .text)),
    ("parallelism", .integer settings.parallelism.toNat)]

def GraphSettings.fields (settings : GraphSettings) : List (String × TomlValue) :=
  [("node_cap", .integer settings.nodeCap.toNat), ("min_weight", .integer settings.minWeight.toNat),
    ("max_edges", .integer settings.maxEdges.toNat), ("language", .text settings.language)]

def LogSettings.fields (settings : LogSettings) : List (String × TomlValue) :=
  [("level", .text settings.level), ("format", .text settings.format.name)]

def Settings.tables (settings : Settings) : List (String × List (String × TomlValue)) :=
  [("analysis", settings.analysis.fields), ("graph", settings.graph.fields),
    ("logging", settings.logging.fields)]

private theorem Settings.statementsFrom?_write {settings : Settings}
    (hnumbers : ∀ n ∈ settings.numbers, n ≤ integerLimit) :
    statementsFrom? [] settings.write = some (plainStatements settings.tables) := by
  simp only [numbers, List.forall_mem_cons] at hnumbers
  obtain ⟨hmaxFiles, hperDir, hsize, hparallelism, hnodeCap, hminWeight, hmaxEdges, -⟩ := hnumbers
  have hformat : IsBareKey "format" := by decide
  have hlast := statementsFrom?_entry hformat (value?_writeText settings.logging.format.name [])
  simp only [List.append_nil] at hlast
  simp only [write, List.append_assoc, List.cons_append, List.nil_append]
  rw [statementsFrom?_header (by decide), statementsFrom?_number (by decide) hmaxFiles,
    statementsFrom?_number (by decide) hperDir, statementsFrom?_number (by decide) hsize,
    statementsFrom?_entry (by decide) (value?_writeTexts _ _),
    statementsFrom?_number (by decide) hparallelism, statementsFrom?_newline,
    statementsFrom?_header (by decide), statementsFrom?_number (by decide) hnodeCap,
    statementsFrom?_number (by decide) hminWeight, statementsFrom?_number (by decide) hmaxEdges,
    statementsFrom?_entry (by decide) (value?_writeText _ _), statementsFrom?_newline,
    statementsFrom?_header (by decide), statementsFrom?_entry (by decide) (value?_writeText _ _),
    hlast, statementsFrom?_nil]
  rfl

private theorem Settings.parse?_document {settings : Settings}
    (hnumbers : ∀ n ∈ settings.numbers, n ≤ integerLimit) :
    TomlValue.parse? (String.ofList settings.write) =
      some (.table (settings.tables.map fun group => (group.1, .table group.2))) := by
  have hmark : (stripStart? ['\uFEFF'] (String.ofList settings.write).toList).getD
      (String.ofList settings.write).toList = settings.write := by
    rw [String.toList_ofList]
    rfl
  have hnames : (settings.tables.map Prod.fst).Nodup := by
    simp [tables]
  have hfields : ∀ group ∈ settings.tables, (group.2.map Prod.fst).Nodup := by
    simp [tables, AnalysisSettings.fields, GraphSettings.fields, LogSettings.fields]
  rw [TomlValue.parse?, hmark, statementsFrom?_write hnumbers]
  simp only [Option.bind_eq_bind, Option.bind_some, sections_plain]
  exact TomlValue.ofSections?_plain hnames hfields

private theorem TomlValue.word64?_toNat (n : UInt64) :
    TomlValue.word64? (.integer (n.toNat : Int)) = some n := by
  have hsize : (n.toNat : Int) < 18446744073709551616 := by
    have := n.toNat_lt
    omega
  simpa [word64?, integer?] using hsize

private theorem TomlValue.word32?_toNat (n : UInt32) :
    TomlValue.word32? (.integer (n.toNat : Int)) = some n := by
  have hsize : (n.toNat : Int) < 4294967296 := by
    have := n.toNat_lt
    omega
  simpa [word32?, integer?] using hsize

private theorem TomlValue.list?_texts (contents : List String) :
    TomlValue.list? TomlValue.text? (.array (contents.map .text)) = some contents := by
  rw [list?, items?, Option.bind_some, List.mapM_map]
  induction contents with
  | nil => rfl
  | cons content contents ih =>
    rw [List.mapM_cons, ih]
    rfl

theorem LogFormat.ofName?_name (format : LogFormat) : ofName? format.name = some format := by
  cases format <;> rfl

private theorem AnalysisSettings.ofToml?_fields (settings : AnalysisSettings) :
    ofToml? (.table settings.fields) = some settings := by
  simp [ofToml?, fields, TomlValue.fields?, TomlValue.get?, List.lookup_cons, TomlValue.orUsual,
    TomlValue.word64?_toNat, TomlValue.list?_texts]

private theorem GraphSettings.ofToml?_fields (settings : GraphSettings) :
    ofToml? (.table settings.fields) = some settings := by
  simp [ofToml?, fields, TomlValue.fields?, TomlValue.get?, List.lookup_cons, TomlValue.orUsual,
    TomlValue.word64?_toNat, TomlValue.word32?_toNat, TomlValue.text?]

private theorem LogSettings.ofToml?_fields (settings : LogSettings) :
    ofToml? (.table settings.fields) = some settings := by
  simp [ofToml?, fields, TomlValue.fields?, TomlValue.get?, List.lookup_cons, TomlValue.orUsual,
    TomlValue.choice?, TomlValue.text?, LogFormat.ofName?_name]

private theorem Settings.ofToml?_tables (settings : Settings) :
    ofToml? (.table (settings.tables.map fun group => (group.1, .table group.2))) =
      some settings := by
  simp [ofToml?, tables, TomlValue.fields?, TomlValue.get?, List.lookup_cons, TomlValue.orUsual,
    AnalysisSettings.ofToml?_fields, GraphSettings.ofToml?_fields, LogSettings.ofToml?_fields]

/-- Written settings are read back as they were. -/
theorem Settings.parse?_write {settings : Settings}
    (hnumbers : ∀ n ∈ settings.numbers, n ≤ integerLimit) :
    parse? (String.ofList settings.write) = some settings := by
  rw [parse?, parse?_document hnumbers, Option.bind_some, ofToml?_tables]

end RepoGraph
