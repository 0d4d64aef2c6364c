import RepoGraph.Command.Run
import RepoGraph.Proofs.Settings.Keys
import RepoGraph.Proofs.Settings.Options

/-!
# Layers of settings

Of two layers the upper one decides under every key, unless it is left at the usual value there;
only patterns add up. So the value that a load gives is that of the checkout's file where that sets
another one than the usual, and else that of the user's file. A listing finds out from the values
which layer a setting is owed to, which fails only for patterns that the checkout repeats.
-/

namespace RepoGraph

open SettingsLoader

namespace Settings

private theorem apply_pick {α β : Type} [DecidableEq α] [DecidableEq β] {f : α → β}
    (hf : ∀ a b, f a = f b → a = b) (usual lower upper : α) :
    f (pick usual lower upper) = pick (f usual) (f lower) (f upper) := by
  by_cases h : upper = usual
  · rw [pick, pick, if_pos h, if_pos (congrArg f h)]
  · rw [pick, pick, if_neg h, if_neg fun heq => h (hf _ _ heq)]

private theorem pick_usual {α : Type} [DecidableEq α] (usual upper : α) :
    pick usual usual upper = upper := by
  by_cases h : upper = usual
  · rw [pick, if_pos h, h]
  · rw [pick, if_neg h]

private theorem readFile?_of_entry {store : FileStore} {path text : String} {executable : Bool}
    {settings : Settings} (h : store.entry path = .ok (.file text.toUTF8 executable))
    (hparse : parse? text = some settings) : readFile? store path = .ok (some settings) := by
  rw [readFile?, if_pos (FileStore.contains_of_entry h), readFile, FileStore.readText_of_entry h]
  dsimp only
  rw [hparse]
  rfl

private theorem override_none (settings : Settings) : settings.override {} = settings := rfl

end Settings

open Settings

namespace SettingKey

private theorem value_overlay {key : SettingKey} (hkey : key ≠ .excludePatterns)
    (lower upper : Settings) :
    key.value (lower.overlay upper) = pick key.usual (key.value lower) (key.value upper) := by
  have hword64 : ∀ a b : UInt64, SettingValue.number a.toNat = .number b.toNat → a = b :=
    fun a b h => UInt64.toNat_inj.mp (SettingValue.number.inj h)
  have hword32 : ∀ a b : UInt32, SettingValue.number a.toNat = .number b.toNat → a = b :=
    fun a b h => UInt32.toNat_inj.mp (SettingValue.number.inj h)
  have htext : ∀ a b : String, SettingValue.text a = .text b → a = b :=
    fun a b h => SettingValue.text.inj h
  have hformat : ∀ a b : LogFormat, SettingValue.text a.name = .text b.name → a = b := by
    intro a b h
    have hname := congrArg LogFormat.ofName? (SettingValue.text.inj h)
    rw [LogFormat.ofName?_name, LogFormat.ofName?_name] at hname
    exact Option.some.inj hname
  cases key with
  | excludePatterns => exact absurd rfl hkey
  | minWeight => exact apply_pick hword32 _ _ _
  | language | level => exact apply_pick htext _ _ _
  | format => exact apply_pick hformat _ _ _
  | maxFileSizeKb | maxFiles | maxFilesPerDir | parallelism | maxEdges | nodeCap =>
    exact apply_pick hword64 _ _ _

private theorem value_layered {key : SettingKey} (hkey : key ≠ .excludePatterns)
    (user own : Option Settings) :
    key.value (layered user own) =
      pick key.usual (key.value (user.getD {})) (key.value (own.getD {})) := by
  rw [layered, value_overlay hkey, value_overlay hkey]
  change pick _ (pick key.usual key.usual _) _ = _
  rw [pick_usual]

end SettingKey

private theorem SettingsLoader.layered_of_load {loader : SettingsLoader} {store : FileStore}
    {root : String}
    {effective : Settings} (h : (loader.load store (some root) {}).2 = .ok effective) :
    ∃ user own, (loader.loadGlobal store).2 = .ok user ∧ loadLocal store root = .ok own ∧
      effective = layered user own := by
  rw [load_eq] at h
  dsimp only at h
  unfold outcome at h
  split at h
  · cases h
  · cases h
  · rename_i user own huser hown
    rw [override_none] at h
    exact ⟨user, own, huser, hown, (checked_eq_ok_iff.mp h).2.symm⟩

private theorem SettingsLoader.load_of_layers {loader : SettingsLoader} {store : FileStore}
    {root : String} {user own : Option Settings} (huser : (loader.loadGlobal store).2 = .ok user)
    (hown : loadLocal store root = .ok own) (hvalid : (layered user own).fault? = none) :
    (loader.load store (some root) {}).2 = .ok (layered user own) := by
  rw [load_eq, huser, checkoutSettings, hown]
  exact checked_eq_ok_iff.mpr ⟨hvalid, rfl⟩

/-- Under every key but that of the patterns, a load gives the value to which the checkout's file
sets it, unless that is the usual one; else the value to which the user's file sets it, or that the
loader kept from it; and else the usual one. -/
theorem SettingsLoader.value_of_load {loader : SettingsLoader} {store : FileStore} {root : String}
    {effective : Settings} (h : (loader.load store (some root) {}).2 = .ok effective)
    {key : SettingKey} (hkey : key ≠ .excludePatterns) :
    let own := key.setIn? store (localPath root)
    let user := match loader.kept with
      | some settings => some (key.value settings)
      | none => loader.globalPath?.bind (key.setIn? store)
    (∀ value, own = some value → value ≠ key.usual → key.value effective = value) ∧
    (own = none ∨ own = some key.usual →
      (∀ value, user = some value → key.value effective = value) ∧
      (user = none → key.value effective = key.usual)) := by
  intro own user
  obtain ⟨userSettings, ownSettings, huser, hown, rfl⟩ := layered_of_load h
  have huserValue : key.value (userSettings.getD {}) = user.getD key.usual := by
    rw [loadGlobal_eq] at huser
    cases hkept : loader.kept with
    | some settings =>
      rw [hkept] at huser
      cases huser
      simp only [user, hkept, Option.getD_some]
    | none =>
      rw [hkept] at huser
      simp only [user, hkept]
      exact SettingKey.value_of_userSettings huser key
  have hownValue : key.value (ownSettings.getD {}) = own.getD key.usual :=
    SettingKey.value_of_readFile? hown key
  rw [SettingKey.value_layered hkey, huserValue, hownValue]
  constructor
  · intro value hvalue hne
    rw [hvalue, Option.getD_some, pick, if_neg hne]
  · intro hunset
    have hownUsual : own.getD key.usual = key.usual := by
      rcases hunset with hnone | husual
      · rw [hnone, Option.getD_none]
      · rw [husual, Option.getD_some]
    rw [hownUsual, pick, if_pos rfl]
    constructor
    · intro value hvalue
      rw [hvalue, Option.getD_some]
    · intro hnone
      rw [hnone, Option.getD_none]

private theorem SettingsLoader.loadGlobal_of_entry {loader : SettingsLoader} {store : FileStore}
    {path text : String} {executable : Bool} {settings : Settings} (hkept : loader.kept = none)
    (hpath : loader.globalPath? = some path)
    (hentry : store.entry path = .ok (.file text.toUTF8 executable))
    (hparse : parse? text = some settings) :
    (loader.loadGlobal store).2 = .ok (some settings) := by
  rw [loadGlobal_eq, hkept, hpath]
  exact readFile?_of_entry hentry hparse

/-- A store with a settings file of a user whose home is `home`, and one of the checkout that is the
root. -/
def twoLayers (user own : String) : FileStore :=
  (((((({} : FileStore).put ["home"] .directory).put [".archgraph", "home"] .directory).put
    ["config.toml", ".archgraph", "home"] (.file user.toUTF8 false)).put [".archgraph"]
      .directory).put ["config.toml", ".archgraph"] (.file own.toUTF8 false))

section TwoLayers

variable (user own : String)

private theorem entry_twoLayers_user :
    (twoLayers user own).entry "home/.archgraph/config.toml" = .ok (.file user.toUTF8 false) := by
  have hhome : (twoLayers user own).entryAt ["home"] = some .directory := by
    rw [twoLayers, FileStore.entryAt_put_of_ne (by decide), FileStore.entryAt_put_of_ne (by decide),
      FileStore.entryAt_put_of_ne (by decide), FileStore.entryAt_put_of_ne (by decide),
      FileStore.entryAt_put_self (by decide)]
  have hdirectory : (twoLayers user own).entryAt [".archgraph", "home"] = some .directory := by
    rw [twoLayers, FileStore.entryAt_put_of_ne (by decide), FileStore.entryAt_put_of_ne (by decide),
      FileStore.entryAt_put_of_ne (by decide), FileStore.entryAt_put_self (by decide)]
  have hfile : (twoLayers user own).entryAt ["config.toml", ".archgraph", "home"] =
      some (.file user.toUTF8 false) := by
    rw [twoLayers, FileStore.entryAt_put_of_ne (by decide), FileStore.entryAt_put_of_ne (by decide),
      FileStore.entryAt_put_self (by decide)]
  have hsegments : Path.segments "home/.archgraph/config.toml" =
      ["home", ".archgraph", "config.toml"] := by decide
  refine FileStore.entry_eq_ok_iff.mpr ⟨_, ?_, hfile⟩
  rw [FileStore.locate, FileStore.locateSegments_eq (by decide), hsegments,
    FileStore.follow_cons rfl (by decide)]
  exact (FileStore.follow_cons hhome (by decide) _).trans
    (FileStore.follow_cons hdirectory (by decide) [])

private theorem entry_twoLayers_own :
    (twoLayers user own).entry (localPath "") = .ok (.file own.toUTF8 false) := by
  have hdirectory : (twoLayers user own).entryAt [".archgraph"] = some .directory := by
    rw [twoLayers, FileStore.entryAt_put_of_ne (by decide), FileStore.entryAt_put_self (by decide)]
  have hfile : (twoLayers user own).entryAt ["config.toml", ".archgraph"] =
      some (.file own.toUTF8 false) := by
    rw [twoLayers, FileStore.entryAt_put_self (by decide)]
  have hsegments : Path.segments (localPath "") = [".archgraph", "config.toml"] := by decide
  refine FileStore.entry_eq_ok_iff.mpr ⟨_, ?_, hfile⟩
  rw [FileStore.locate, FileStore.locateSegments_eq (by decide), hsegments,
    FileStore.follow_cons rfl (by decide)]
  exact FileStore.follow_cons hdirectory (by decide) []

variable {user own} {userSettings ownSettings : Settings}

private theorem globalPath?_home :
    (ofHome (some "home")).globalPath? = some "home/.archgraph/config.toml" := by decide +kernel

private theorem loadGlobal_twoLayers (h : parse? user = some userSettings) :
    ((ofHome (some "home")).loadGlobal (twoLayers user own)).2 = .ok (some userSettings) :=
  loadGlobal_of_entry rfl globalPath?_home (entry_twoLayers_user user own) h

private theorem loadLocal_twoLayers (h : parse? own = some ownSettings) :
    loadLocal (twoLayers user own) "" = .ok (some ownSettings) :=
  readFile?_of_entry (entry_twoLayers_own user own) h

private theorem setIn?_twoLayers_user (key : SettingKey) :
    (ofHome (some "home")).globalPath?.bind (key.setIn? (twoLayers user own)) =
      key.setBy? user := by
  rw [globalPath?_home, Option.bind_some,
    SettingKey.setIn?_of_entry (entry_twoLayers_user user own)]

private theorem setIn?_twoLayers_own (key : SettingKey) :
    key.setIn? (twoLayers user own) (localPath "") = key.setBy? own :=
  SettingKey.setIn?_of_entry (entry_twoLayers_own user own) key

end TwoLayers

theorem SettingsLoader.value_of_load_twoLayers :
    let loader := ofHome (some "home")
    let store := twoLayers "[graph]\nnode_cap = 120\nmax_edges = 300\n"
      "[graph]\nnode_cap = 60\n\n[analysis]\nmax_files = 3000\n"
    ∃ effective, (loader.load store (some "") {}).2 = .ok effective ∧
      SettingKey.nodeCap ≠ .excludePatterns ∧ SettingKey.nodeCap.value effective = .number 60 ∧
      SettingKey.maxEdges.value effective = .number 300 ∧
      SettingKey.maxFiles.value effective = .number 3000 := by
  intro loader store
  have huser : parse? "[graph]\nnode_cap = 120\nmax_edges = 300\n" =
      some { graph := { nodeCap := 120, maxEdges := 300 } } := by decide +kernel
  have hown : parse? "[graph]\nnode_cap = 60\n\n[analysis]\nmax_files = 3000\n" =
      some { graph := { nodeCap := 60 } } := by decide +kernel
  have hload : (loader.load store (some "") {}).2 = .ok _ :=
    load_of_layers (loadGlobal_twoLayers huser) (loadLocal_twoLayers hown) (by decide +kernel)
  refine ⟨_, hload, by decide, ?_, ?_, ?_⟩
  · refine (value_of_load hload (by decide)).1 _ ?_ (by decide)
    exact (setIn?_twoLayers_own _).trans (by decide +kernel)
  · refine ((value_of_load hload (by decide)).2 (.inl ?_)).1 _ ?_
    · exact (setIn?_twoLayers_own _).trans (by decide +kernel)
    · exact (setIn?_twoLayers_user _).trans (by decide +kernel)
  · refine ((value_of_load hload (by decide)).2 (.inr ?_)).2 ?_
    · exact (setIn?_twoLayers_own _).trans (by decide +kernel)
    · exact (setIn?_twoLayers_user _).trans (by decide +kernel)

/-- A checkout cannot set a number back to the usual one that the user's file changes. -/
theorem SettingsLoader.load_keeps_user_over_usual :
    ¬ ∀ (loader : SettingsLoader) (store : FileStore) (root : String) (effective : Settings)
      (key : SettingKey) (value : SettingValue), loader.kept = none → key ≠ .excludePatterns →
      (loader.load store (some root) {}).2 = .ok effective →
      key.setIn? store (localPath root) = some value → key.value effective = value := by
  intro hall
  have huser : parse? "[graph]\nnode_cap = 120\n" = some { graph := { nodeCap := 120 } } := by
    decide +kernel
  have hown : parse? "[graph]\nnode_cap = 200\n" = some {} := by decide +kernel
  have hset : SettingKey.nodeCap.setBy? "[graph]\nnode_cap = 200\n" = some (.number 200) := by
    decide +kernel
  have hload := load_of_layers (loadGlobal_twoLayers huser) (loadLocal_twoLayers hown)
    (by decide +kernel)
  have hvalue := hall (ofHome (some "home")) _ "" _ .nodeCap _ rfl (by decide) hload
    ((setIn?_twoLayers_own _).trans hset)
  revert hvalue
  decide +kernel

namespace Settings

section Patterns

variable {texts more : List String}

private theorem appendNew_cons (text : String) :
    appendNew texts (text :: more) =
      appendNew (if texts.contains text then texts else texts ++ [text]) more :=
  rfl

private theorem prefix_appendNew : texts <+: appendNew texts more := by
  induction more generalizing texts with
  | nil => exact List.prefix_refl texts
  | cons text more ih =>
    rw [appendNew_cons]
    split
    · exact ih
    · exact (List.prefix_append texts [text]).trans ih

private theorem nodup_appendNew (h : texts.Nodup) : (appendNew texts more).Nodup := by
  induction more generalizing texts with
  | nil => exact h
  | cons text more ih =>
    rw [appendNew_cons]
    split
    · exact ih h
    · rename_i hnew
      refine ih (List.nodup_append.mpr ⟨h, List.nodup_singleton text, ?_⟩)
      intro other hother new hmem heq
      obtain rfl : new = text := List.mem_singleton.mp hmem
      exact hnew (List.contains_iff_mem.mpr (heq ▸ hother))

private theorem appendNew_of_nodup (h : (texts ++ more).Nodup) :
    appendNew texts more = texts ++ more := by
  induction more generalizing texts with
  | nil => rw [appendNew, List.foldl_nil, List.append_nil]
  | cons text more ih =>
    have hnew : ¬ texts.contains text = true := fun hmem =>
      (List.nodup_append.mp h).2.2 text (List.contains_iff_mem.mp hmem) text List.mem_cons_self rfl
    rw [appendNew_cons, if_neg hnew, ih (by rwa [List.append_assoc]), List.append_assoc]
    rfl

private theorem appendNew_nil_eq_self_iff : appendNew [] texts = texts ↔ texts.Nodup := by
  constructor
  · intro h
    rw [← h]
    exact nodup_appendNew List.nodup_nil
  · exact fun h => appendNew_of_nodup h

private theorem appendNew_eq_nil_iff : appendNew texts more = [] ↔ texts = [] ∧ more = [] := by
  constructor
  · intro h
    obtain rfl : texts = [] := List.prefix_nil.mp (h ▸ prefix_appendNew)
    refine ⟨rfl, ?_⟩
    cases more with
    | nil => rfl
    | cons text more =>
      have hnil : appendNew [text] more = [] := h
      have hkept : [text] <+: appendNew [text] more := prefix_appendNew
      rw [hnil] at hkept
      exact absurd (List.prefix_nil.mp hkept) (List.cons_ne_nil _ _)
  · rintro ⟨rfl, rfl⟩
    rfl

end Patterns

end Settings

namespace SettingSource

variable {usual user own effective : SettingValue}

/-- A listing calls a value usual exactly if it is, where a value is usual only if both layers leave
it so. -/
theorem ofLayers_eq_usual_iff (h : effective = usual → user = usual ∧ own = usual) :
    ofLayers usual user own effective = .usual ↔ effective = usual := by
  rw [ofLayers]
  split
  · rename_i howed
    refine ⟨nofun, fun heq => ?_⟩
    exact absurd ((h heq).2.trans (h heq).1.symm) howed.2
  · split
    · rename_i hother
      exact ⟨nofun, fun heq => absurd heq hother⟩
    · rename_i hother
      exact ⟨fun _ => not_not.mp hother, fun _ => rfl⟩

private theorem own_ne_usual_of_ofLayers (h : effective = usual → user = usual ∧ own = usual)
    (howed : ofLayers usual user own effective = .checkout) : own ≠ usual := by
  rw [ofLayers] at howed
  split at howed
  · rename_i hown
    intro heq
    exact hown.2 (heq.trans (h (hown.1.trans heq)).1.symm)
  · split at howed <;> cases howed

/-- A value is wrongly owed to the user where the user has the usual one and the checkout not the
one that is in force. -/
theorem ofLayers_eq_user_iff (h : effective = usual → user = usual ∧ own = usual)
    (huser : user = usual) : ofLayers usual user own effective = .user ↔ effective ≠ own := by
  subst huser
  rw [ofLayers]
  split
  · rename_i hown
    exact ⟨nofun, fun hne => absurd hown.1 hne⟩
  · rename_i hown
    split
    · rename_i hother
      refine ⟨fun _ heq => hown ⟨heq, ?_⟩, fun _ => rfl⟩
      exact fun husual => hother (heq.trans husual)
    · rename_i hother
      have heq := not_not.mp hother
      exact ⟨nofun, fun hne => absurd (heq.trans (h heq).2.symm) hne⟩

end SettingSource

namespace SettingKey

private theorem usual_of_value_layered {key : SettingKey} {user own : Option Settings}
    (h : key.value (layered user own) = key.usual) :
    key.value (user.getD {}) = key.usual ∧ key.value (own.getD {}) = key.usual := by
  by_cases hkey : key = .excludePatterns
  · subst hkey
    have hpatterns := SettingValue.texts.inj h
    obtain ⟨hlower, hown⟩ := appendNew_eq_nil_iff.mp hpatterns
    obtain ⟨-, huser⟩ := appendNew_eq_nil_iff.mp hlower
    exact ⟨congrArg SettingValue.texts huser, congrArg SettingValue.texts hown⟩
  · rw [value_layered hkey, pick] at h
    split at h
    · rename_i hown
      exact ⟨h, hown⟩
    · rename_i hown
      exact absurd h hown

/-- Where the user has the usual value, that of the checkout is in force, but for patterns that the
checkout repeats. -/
theorem value_layered_ne_iff {key : SettingKey} {user own : Option Settings}
    (h : key.value (user.getD {}) = key.usual) :
    key.value (layered user own) ≠ key.value (own.getD {}) ↔
      key = .excludePatterns ∧ ¬ (own.getD {}).analysis.excludePatterns.Nodup := by
  by_cases hkey : key = .excludePatterns
  · subst hkey
    have huser : (user.getD {}).analysis.excludePatterns = [] := SettingValue.texts.inj h
    have hvalue : excludePatterns.value (layered user own) =
        .texts (appendNew [] (own.getD {}).analysis.excludePatterns) := by
      change SettingValue.texts (appendNew (appendNew [] _) _) = _
      rw [huser]
      rfl
    rw [hvalue, and_iff_right rfl, ← appendNew_nil_eq_self_iff]
    exact not_congr (Iff.of_eq (SettingValue.texts.injEq _ _))
  · have hvalue : key.value (layered user own) = key.value (own.getD {}) := by
      rw [value_layered hkey, h, pick_usual]
    exact ⟨fun hne => absurd hvalue hne, fun hboth => absurd hboth.1 hkey⟩

/-- The layer to which a listing owes the value of the setting. -/
def source (key : SettingKey) (user own : Option Settings) : SettingSource :=
  .ofLayers key.usual (key.value (user.getD {})) (key.value (own.getD {}))
    (key.value (layered user own))

end SettingKey

private theorem Settings.sourced_layered (user own : Option Settings) :
    (layered user own).sourced (user.getD {}) (own.getD {}) =
      SettingKey.all.map fun key =>
        ⟨key.name, key.value (layered user own), key.source user own⟩ := by
  simp only [sourced, SettingKey.entries_eq, List.zip_map', List.map_map]
  rfl

section Listing

variable {machine : Machine} {common : CommonOptions} {root : String} {user own : Option Settings}

private theorem listSettings_of_layers (hfile : common.settingsFile = none)
    (huser : (machine.loader.loadGlobal machine.store).2 = .ok user)
    (hown : loadLocal machine.store root = .ok own) (hvalid : (layered user own).fault? = none) :
    listSettings machine common root =
      .ok (SettingKey.all.map fun key =>
        ⟨key.name, key.value (layered user own), key.source user own⟩) := by
  rw [← sourced_layered, listSettings, loadSettings, hfile]
  dsimp only
  rw [load_of_layers huser hown hvalid, huser, hown]
  rfl

/-- Where the settings of user and checkout load and those in force are in range, they are listed
with their sources. A value is listed as usual exactly if it is, and as the checkout's only if that
has another one than the usual. It is listed as the user's only if the user has another one than
the usual, except for patterns that the checkout repeats and the user has none of. -/
theorem listSettings_sources (hfile : common.settingsFile = none)
    (huser : (machine.loader.loadGlobal machine.store).2 = .ok user)
    (hown : loadLocal machine.store root = .ok own) (hvalid : (layered user own).fault? = none) :
    listSettings machine common root =
      .ok (SettingKey.all.map fun key =>
        ⟨key.name, key.value (layered user own), key.source user own⟩) ∧
    ∀ key : SettingKey,
      (key.source user own = .usual ↔ key.value (layered user own) = key.usual) ∧
      (key.source user own = .checkout → key.value (own.getD {}) ≠ key.usual) ∧
      (key.source user own = .user ∧ key.value (user.getD {}) = key.usual ↔
        key = .excludePatterns ∧ key.value (user.getD {}) = key.usual ∧
          ¬ (own.getD {}).analysis.excludePatterns.Nodup) := by
  refine ⟨listSettings_of_layers hfile huser hown hvalid, fun key => ?_⟩
  refine ⟨SettingSource.ofLayers_eq_usual_iff SettingKey.usual_of_value_layered,
    SettingSource.own_ne_usual_of_ofLayers SettingKey.usual_of_value_layered, ?_⟩
  constructor
  · rintro ⟨howed, husual⟩
    have hne := (SettingSource.ofLayers_eq_user_iff SettingKey.usual_of_value_layered husual).mp
      howed
    obtain ⟨hkey, hrepeated⟩ := (SettingKey.value_layered_ne_iff husual).mp hne
    exact ⟨hkey, husual, hrepeated⟩
  · rintro ⟨hkey, husual, hrepeated⟩
    have hne := (SettingKey.value_layered_ne_iff husual).mpr ⟨hkey, hrepeated⟩
    exact ⟨(SettingSource.ofLayers_eq_user_iff SettingKey.usual_of_value_layered husual).mpr hne,
      husual⟩

end Listing

def Machine.withLayers (home : Option String) (user own : String) : Machine where
  store := twoLayers user own
  environment := []
  accountHome := home
  git := fun _ _ => .error .notFound

theorem listSettings_sources_withLayers :
    let machine := Machine.withLayers (some "home") "[graph]\nmin_weight = 1\n"
      "[graph]\nnode_cap = 50\n\n[analysis]\nexclude_patterns = [\"a\", \"b\"]\n"
    ∃ user own, (machine.loader.loadGlobal machine.store).2 = .ok user ∧
      loadLocal machine.store "" = .ok own ∧ (layered user own).fault? = none ∧
      (listSettings machine {} "").isOk ∧
      SettingKey.nodeCap.source user own = .checkout ∧
      SettingKey.minWeight.source user own = .user ∧
      SettingKey.maxEdges.source user own = .usual ∧
      SettingKey.excludePatterns.source user own ≠ .user := by
  intro machine
  have huser : parse? "[graph]\nmin_weight = 1\n" = some { graph := { minWeight := 1 } } := by
    decide +kernel
  have hown : parse? "[graph]\nnode_cap = 50\n\n[analysis]\nexclude_patterns = [\"a\", \"b\"]\n" =
      some { analysis := { excludePatterns := ["a", "b"] }, graph := { nodeCap := 50 } } := by
    decide +kernel
  have hfile : ({} : CommonOptions).settingsFile = none := rfl
  have huser : (machine.loader.loadGlobal machine.store).2 = .ok _ := loadGlobal_twoLayers huser
  obtain ⟨hlisted, hsources⟩ := listSettings_sources hfile huser (loadLocal_twoLayers hown)
    (by decide +kernel)
  refine ⟨_, _, huser, loadLocal_twoLayers hown, by decide +kernel, ?_,
    by decide +kernel, by decide +kernel, (hsources .maxEdges).1.mpr (by decide +kernel), ?_⟩
  · rw [hlisted]
    rfl
  · intro howed
    exact ((hsources .excludePatterns).2.2.mp ⟨howed, rfl⟩).2.2 (by decide +kernel)

/-- Patterns that the checkout repeats are listed as those of a user who has no settings. -/
theorem listSettings_owes_repeated_to_user :
    ¬ ∀ (machine : Machine) (root : String) (user own : Option Settings)
      (listed : List SourcedSetting),
      (machine.loader.loadGlobal machine.store).2 = .ok user →
      loadLocal machine.store root = .ok own → (layered user own).fault? = none →
      listSettings machine {} root = .ok listed →
      ∀ (key : SettingKey) (value : SettingValue), ⟨key.name, value, .user⟩ ∈ listed →
        key.value (user.getD {}) ≠ key.usual := by
  intro hall
  have hown : parse? "[analysis]\nexclude_patterns = [\"a\", \"a\"]\n" =
      some { analysis := { excludePatterns := ["a", "a"] } } := by decide +kernel
  let machine := Machine.withLayers none "" "[analysis]\nexclude_patterns = [\"a\", \"a\"]\n"
  have huser : (machine.loader.loadGlobal machine.store).2 = .ok none := rfl
  have hvalid : (layered none (some { analysis := { excludePatterns := ["a", "a"] } })).fault? =
      none := by decide +kernel
  have hfile : ({} : CommonOptions).settingsFile = none := rfl
  have hlisted := listSettings_of_layers hfile huser (loadLocal_twoLayers hown) hvalid
  refine hall machine "" none _ _ huser (loadLocal_twoLayers hown) hvalid hlisted
    .excludePatterns (.texts ["a"]) ?_ rfl
  exact List.mem_map.mpr ⟨.excludePatterns, by decide, by decide +kernel⟩

end RepoGraph
