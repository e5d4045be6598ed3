import Mathlib.Data.Char
import Mathlib.Logic.Function.Basic
import Synergy.Base.Text
import Synergy.Lib.CopiedMap

/-! The migration of legacy settings. A store of settings is a map, and a run is the list of the states of all stores
after each sync. -/
namespace Synergy.Gui.Migration
open Lib

/-- What is done with the value of a setting. -/
class SettingValue (V : Type) where
  toBool : V → Bool
  ofBool : Bool → V
  ofInt : Int → V

export SettingValue (toBool ofBool ofInt)

/-- The settings of a file, in the order of their keys. -/
abbrev Store (V : Type) := SortedMap (id : Str → Str) V

inductive Scope where
  | user | system
  deriving DecidableEq

inductive CoreMode where
  | none | client | server

def CoreMode.toInt : CoreMode → Int
  | none => 0
  | client => 1
  | server => 2

inductive ProcessMode where
  | service | desktop

def ProcessMode.toInt : ProcessMode → Int
  | service => 0
  | desktop => 1

def kCurrentSchemaVersion : Int := 1

def groupServerChecked : Str := "groupServerChecked".toList

def groupClientChecked : Str := "groupClientChecked".toList

def enableService : Str := "enableService".toList

def kLegacySystemScopeKey : Str := "systemScope".toList

def coreModeKey : Str := "core/coreMode".toList

def processModeKey : Str := "core/processMode".toList

def autoStartCore : Str := "gui/startCoreWithGui".toList

/-- The legacy keys whose values are taken as they are, with their new keys. -/
def renamedKeys : List (Str × Str) :=
  [("screenName".toList, "core/computerName".toList),
    ("port".toList, "core/port".toList),
    ("interface".toList, "core/interface".toList),
    ("logLevel2".toList, "log/level".toList),
    ("logToFile".toList, "log/toFile".toList),
    ("logFilename".toList, "log/file".toList),
    ("elevateModeEnum".toList, "daemon/elevate".toList),
    ("cryptoEnabled".toList, "security/tlsEnabled".toList),
    ("autoHide".toList, "gui/autoHide".toList),
    ("lastVersion".toList, "core/lastVersion".toList),
    ("useExternalConfig".toList, "server/externalConfig".toList),
    ("configFile".toList, "server/externalConfigFile".toList),
    ("serverHostname".toList, "client/remoteHost".toList),
    ("tlsCertPath".toList, "security/certificate".toList),
    ("tlsKeyLength".toList, "security/keySize".toList),
    ("preventSleep".toList, "core/preventSleep".toList),
    ("languageSync".toList, "client/languageSync".toList),
    ("invertScrollDirection".toList, "client/invertYScroll".toList),
    ("closeToTray".toList, "gui/closeToTray".toList),
    ("showCloseReminder".toList, "gui/closeReminder".toList)]

section
variable {V : Type} [SettingValue V]

/-- The new key and value of a legacy key, unless it is obsolete. -/
def mapLegacyKey (oldKey : Str) (value : V) : Option (Str × V) :=
  match renamedKeys.lookup oldKey with
  | some key => some (key, value)
  | none =>
    if oldKey = groupServerChecked then
      if toBool value then some (coreModeKey, ofInt CoreMode.server.toInt) else none
    else if oldKey = groupClientChecked then
      if toBool value then some (coreModeKey, ofInt CoreMode.client.toInt) else none
    else if oldKey = enableService then
      some (processModeKey, ofInt (if toBool value then ProcessMode.service else ProcessMode.desktop).toInt)
    else none

def looksLikeLegacySettings (legacy : Store V) : Bool :=
  legacy.contains "startedBefore".toList || legacy.contains groupServerChecked || legacy.contains groupClientChecked ||
    legacy.contains kLegacySystemScopeKey

/-- The legacy settings prefer the system scope. -/
def hasSystemScope (legacy : Store V) : Bool := (legacy.get? kLegacySystemScopeKey).elim false toBool

/-- Which legacy stores are the file of the new ones, and which can be written. -/
structure Host where
  sharesPath : Scope → Bool
  isWritable : Scope → Bool

/-- What is stored: the legacy files that are not shared, the new files, the backups, and the extra file with the
preferred scope and the schema version. -/
structure Stores (V : Type) where
  legacy : Scope → Store V
  new : Scope → Store V
  backup : Scope → Store V
  preferSystem : Bool
  schemaVersion : Int

/-- The file of a legacy scope. -/
def legacyFile (host : Host) (s : Stores V) (scope : Scope) : Store V :=
  if host.sharesPath scope then s.new scope else s.legacy scope

/-- The settings of the user scope fall back on those of the system. -/
def legacySettings (host : Host) (s : Stores V) : Scope → Store V
  | .user =>
    SortedMap.copyInto (fun key value => some (key, value)) (legacyFile host s .user) (legacyFile host s .system)
  | .system => legacyFile host s .system

namespace Stores

def removeBackup (s : Stores V) (scope : Scope) : Stores V :=
  { s with backup := Function.update s.backup scope .empty }

def backupLegacy (host : Host) (s : Stores V) (scope : Scope) : Stores V :=
  { s with
    backup := Function.update s.backup scope
      (SortedMap.copyInto (fun key value => some (key, value)) (legacySettings host s scope) .empty) }

def setNew (s : Stores V) (scope : Scope) (settings : Store V) : Stores V :=
  { s with new := Function.update s.new scope settings }

def maybeClearLegacy (host : Host) (s : Stores V) (scope : Scope) : Stores V :=
  if host.sharesPath scope then s
  else if host.isWritable scope then { s with legacy := Function.update s.legacy scope .empty }
  else s

end Stores

/-- The new settings of a scope, and how many keys are migrated. -/
def migrateOneScope (legacy newSettings : Store V) : Store V × Nat :=
  (legacy.copyInto mapLegacyKey newSettings, (legacy.entries.filter fun e => (mapLegacyKey e.1 e.2).isSome).length)

def applyMasterCompatDefaults (newSettings : Store V) : Store V := newSettings.put autoStartCore (ofBool true)

/-- One scope of `runLegacyMigration`. -/
def migrateScope (host : Host) (s : Stores V) (scope : Scope) : List (Stores V) :=
  if looksLikeLegacySettings (legacySettings host s scope) then
    let removed := s.removeBackup scope
    let backedUp := removed.backupLegacy host scope
    let (settings, count) := migrateOneScope (legacySettings host backedUp scope) (backedUp.new scope)
    let migrated := backedUp.setNew scope settings
    let defaulted := if 0 < count then migrated.setNew scope (applyMasterCompatDefaults settings) else migrated
    [removed, backedUp, migrated, defaulted, defaulted.maybeClearLegacy host scope]
  else []

def runLegacyMigration (host : Host) (s : Stores V) : List (Stores V) :=
  let user := migrateScope host s .user
  let system := migrateScope host (user.getLastD s) .system
  let migrated := user ++ system
  if hasSystemScope (legacySettings host s .user) then
    migrated ++ [{ migrated.getLastD s with preferSystem := true }]
  else migrated

def migrateIfNeeded (host : Host) (s : Stores V) : List (Stores V) :=
  if kCurrentSchemaVersion ≤ s.schemaVersion then []
  else
    let migrated := runLegacyMigration host s
    migrated ++ [{ migrated.getLastD s with schemaVersion := kCurrentSchemaVersion }]

/-- A complete run. -/
def complete (host : Host) (s : Stores V) : Stores V := (migrateIfNeeded host s).getLastD s

/-- A run that is cut off after some syncs. -/
def cutOff (host : Host) (s : Stores V) (syncs : Nat) : Stores V := ((migrateIfNeeded host s).take syncs).getLastD s

/-- The state after runs that are cut off one after the other. -/
def cutOffRuns (host : Host) (s : Stores V) (cuts : List Nat) : Stores V := cuts.foldl (cutOff host) s

end

/-! ### Stores as maps -/

variable {V : Type} {legacy legacy' other newSettings : Store V}

/-! ### Stores -/

theorem Store.ext {a b : Store V} (h : ∀ key, a.get? key = b.get? key) : a = b := by
  have hmem (m : Store V) (e : Str × V) : e ∈ m.entries ↔ m.get? e.1 = some e.2 := by
    refine ⟨m.get?_of_mem, fun hget => ?_⟩
    obtain ⟨key, hkey, rfl⟩ := (m.get?_eq_some_iff e.1 e.2).mp hget
    exact hkey
  exact SortedMap.ext_of_mem fun e => by rw [hmem, hmem, h]

theorem Store.exists_of_ne_empty {store : Store V} (h : store ≠ .empty) : ∃ key v, store.get? key = some v := by
  by_contra hnone
  refine h (Store.ext fun key => ?_)
  cases hget : store.get? key with
  | none => rfl
  | some v => exact absurd ⟨key, v, hget⟩ hnone

/-- The stores have the same legacy settings. -/
def Agree (a b : Store V) : Prop := ∀ key, '/' ∉ key → a.get? key = b.get? key

theorem Agree.symm {a b : Store V} (h : Agree a b) : Agree b a := fun key hkey => (h key hkey).symm

theorem Agree.trans {a b c : Store V} (h : Agree a b) (h' : Agree b c) : Agree a c :=
  fun key hkey => (h key hkey).trans (h' key hkey)

theorem Agree.looksLike (h : Agree legacy other) : looksLikeLegacySettings legacy = looksLikeLegacySettings other := by
  have hcontains (key : Str) (hkey : '/' ∉ key) : legacy.contains key = other.contains key := by
    rw [SortedMap.contains_eq_isSome_get?, SortedMap.contains_eq_isSome_get?, h key hkey]
  rw [looksLikeLegacySettings, looksLikeLegacySettings, hcontains _ (by decide), hcontains _ (by decide),
    hcontains _ (by decide), hcontains _ (by decide)]

/-! ### Keys -/

variable [SettingValue V]

/-- Each legacy key that is migrated, with its new key. -/
private def targets : List (Str × Str) :=
  renamedKeys ++ [(groupServerChecked, coreModeKey), (groupClientChecked, coreModeKey), (enableService, processModeKey)]

private theorem mem_targets {oldKey key : Str} {value v : V} (h : mapLegacyKey oldKey value = some (key, v)) :
    (oldKey, key) ∈ targets := by
  rw [mapLegacyKey] at h
  cases hrenamed : renamedKeys.lookup oldKey with
  | some new =>
    rw [hrenamed] at h
    obtain ⟨rfl, -⟩ := Prod.mk.inj (Option.some.inj h)
    obtain ⟨before, after, hsplit, -⟩ := List.lookup_eq_some_iff.mp hrenamed
    rw [targets, hsplit]
    simp
  | none =>
    simp only [hrenamed] at h
    split_ifs at h with hserver hchecked hclient hchecked henable
    all_goals
      obtain ⟨rfl, -⟩ := Prod.mk.inj (Option.some.inj h)
      subst oldKey
      simp [targets]

/-- Legacy keys have no group, and new ones do. -/
private theorem slash_of_mem_targets : ∀ e ∈ targets, '/' ∉ e.1 ∧ '/' ∈ e.2 ∧ e.2 ≠ autoStartCore := by
  decide

private theorem eq_of_mem_targets : ∀ e ∈ targets, ∀ d ∈ targets, e.2 = d.2 →
    e.1 = d.1 ∨ e.1 = groupServerChecked ∧ d.1 = groupClientChecked ∨
      e.1 = groupClientChecked ∧ d.1 = groupServerChecked := by
  decide

theorem mapLegacyKey_slash {oldKey key : Str} {value v : V} (h : mapLegacyKey oldKey value = some (key, v)) :
    '/' ∉ oldKey ∧ '/' ∈ key ∧ key ≠ autoStartCore :=
  slash_of_mem_targets _ (mem_targets h)

/-- Only the two groups are migrated to one key. -/
theorem mapLegacyKey_injective {oldKey oldKey' key : Str} {value value' v v' : V}
    (h : mapLegacyKey oldKey value = some (key, v)) (h' : mapLegacyKey oldKey' value' = some (key, v')) :
    oldKey = oldKey' ∨ oldKey = groupServerChecked ∧ oldKey' = groupClientChecked ∨
      oldKey = groupClientChecked ∧ oldKey' = groupServerChecked :=
  eq_of_mem_targets _ (mem_targets h) _ (mem_targets h') rfl

theorem mapLegacyKey_server (value : V) : mapLegacyKey groupServerChecked value =
    if toBool value then some (coreModeKey, ofInt CoreMode.server.toInt) else none := by
  have hrenamed : renamedKeys.lookup groupServerChecked = none := by decide
  simp only [mapLegacyKey, hrenamed, if_true]

theorem mapLegacyKey_client (value : V) : mapLegacyKey groupClientChecked value =
    if toBool value then some (coreModeKey, ofInt CoreMode.client.toInt) else none := by
  have hrenamed : renamedKeys.lookup groupClientChecked = none := by decide
  have hne : groupClientChecked ≠ groupServerChecked := by decide
  simp only [mapLegacyKey, hrenamed, if_neg hne, if_true]

theorem mapLegacyKey_group {value : V} {p : Str × V}
    (h : mapLegacyKey groupServerChecked value = some p ∨ mapLegacyKey groupClientChecked value = some p) :
    toBool value = true := by
  rw [mapLegacyKey_server, mapLegacyKey_client] at h
  by_contra hchecked
  rw [if_neg hchecked, if_neg hchecked, or_self] at h
  cases h

/-! ### Preferences -/

theorem Agree.hasSystemScope (h : Agree legacy other) : hasSystemScope legacy = hasSystemScope other := by
  rw [Migration.hasSystemScope, Migration.hasSystemScope, h _ (by decide)]

/-- A store that prefers the system scope looks like a legacy one. -/
theorem looksLike_of_hasSystemScope (h : hasSystemScope legacy = true) : looksLikeLegacySettings legacy = true := by
  have hcontains : legacy.contains kLegacySystemScopeKey = true := by
    rw [hasSystemScope] at h
    rw [SortedMap.contains_eq_isSome_get?]
    cases hget : legacy.get? kLegacySystemScopeKey with
    | none =>
      rw [hget] at h
      cases h
    | some value => rfl
  rw [looksLikeLegacySettings, hcontains, Bool.or_true]

/-! ### One scope -/

/-- The value of a new key comes from a legacy one: from the last of those that are migrated to it. -/
def Writes (legacy : Store V) (key : Str) (v : V) : Prop :=
  ∃ oldKey value, legacy.get? oldKey = some value ∧ mapLegacyKey oldKey value = some (key, v) ∧
    ∀ oldKey' value' v', legacy.get? oldKey' = some value' → mapLegacyKey oldKey' value' = some (key, v') →
      oldKey' ≤ oldKey

theorem Writes.unique {key : Str} {v v' : V} (h : Writes legacy key v) (h' : Writes legacy key v') : v = v' := by
  obtain ⟨oldKey, value, hget, hmap, hlast⟩ := h
  obtain ⟨oldKey', value', hget', hmap', hlast'⟩ := h'
  obtain rfl : oldKey = oldKey' := le_antisymm (hlast' _ _ _ hget hmap) (hlast _ _ _ hget' hmap')
  obtain rfl : value = value' := Option.some.inj (hget.symm.trans hget')
  exact (Prod.mk.inj (Option.some.inj (hmap.symm.trans hmap'))).2

theorem Writes.slash {key : Str} {v : V} (h : Writes legacy key v) : '/' ∈ key ∧ key ≠ autoStartCore := by
  obtain ⟨_, _, _, hmap, _⟩ := h
  exact (mapLegacyKey_slash hmap).2

theorem get?_migrateOneScope (legacy newSettings : Store V) (key : Str) :
    (∃ v, Writes legacy key v ∧ (migrateOneScope legacy newSettings).1.get? key = some v) ∨
      (∀ oldKey value v, legacy.get? oldKey = some value → mapLegacyKey oldKey value ≠ some (key, v)) ∧
        (migrateOneScope legacy newSettings).1.get? key = newSettings.get? key := by
  have hmem {oldKey : Str} {value : V} (hget : legacy.get? oldKey = some value) : (oldKey, value) ∈ legacy.entries := by
    obtain ⟨_, hkey, rfl⟩ := (legacy.get?_eq_some_iff oldKey value).mp hget
    exact hkey
  rcases SortedMap.get?_copyInto mapLegacyKey legacy newSettings key with
    ⟨e, he, v, ⟨_, hmap, rfl⟩, hlast, hget⟩ | ⟨hnone, hget⟩
  · exact Or.inl ⟨v, ⟨e.1, e.2, legacy.get?_of_mem he, hmap, fun oldKey value w hold hw =>
      hlast (oldKey, value) (hmem hold) w ⟨_, hw, rfl⟩⟩, hget⟩
  · exact Or.inr ⟨fun oldKey value v hold hv => hnone _ (hmem hold) v ⟨_, hv, rfl⟩, hget⟩

theorem count_pos_iff (legacy newSettings : Store V) :
    0 < (migrateOneScope legacy newSettings).2 ↔ ∃ key v, Writes legacy key v := by
  rw [migrateOneScope, List.length_pos_iff_exists_mem]
  constructor
  · rintro ⟨e, he⟩
    obtain ⟨hmem, hsome⟩ := List.mem_filter.mp he
    obtain ⟨p, hp⟩ := Option.isSome_iff_exists.mp hsome
    rcases get?_migrateOneScope legacy newSettings p.1 with ⟨v, hwrites, -⟩ | ⟨hnone, -⟩
    · exact ⟨p.1, v, hwrites⟩
    · exact absurd hp (hnone e.1 e.2 p.2 (legacy.get?_of_mem hmem))
  · rintro ⟨key, v, oldKey, value, hget, hmap, -⟩
    obtain ⟨_, hmem, rfl⟩ := (legacy.get?_eq_some_iff oldKey value).mp hget
    exact ⟨_, List.mem_filter.mpr ⟨hmem, Option.isSome_iff_exists.mpr ⟨_, hmap⟩⟩⟩

/-- The new settings of a scope after it has been migrated. -/
def finish (legacy newSettings : Store V) : Store V :=
  if looksLikeLegacySettings legacy then
    let (settings, count) := migrateOneScope legacy newSettings
    if 0 < count then applyMasterCompatDefaults settings else settings
  else newSettings

/-- The legacy settings of one store are written alike from another one. -/
def Absorbs (legacy legacy' : Store V) : Prop := ∀ key v, Writes legacy' key v → Writes legacy key v

theorem Agree.absorbs (h : Agree legacy legacy') : Absorbs legacy legacy' := by
  rintro key v ⟨oldKey, value, hget, hmap, hlast⟩
  exact ⟨oldKey, value, (h _ (mapLegacyKey_slash hmap).1).trans hget, hmap, fun oldKey' value' v' hget' hmap' =>
    hlast oldKey' value' v' ((h _ (mapLegacyKey_slash hmap').1).symm.trans hget') hmap'⟩

private theorem migrate_absorbed (h : Absorbs legacy legacy') {settings : Store V}
    (hsettings : ∀ key v, Writes legacy key v → settings.get? key = some v) :
    (migrateOneScope legacy' settings).1 = settings := by
  refine Store.ext fun key => ?_
  rcases get?_migrateOneScope legacy' settings key with ⟨v, hwrites, hget⟩ | ⟨-, hget⟩
  · exact hget.trans (hsettings key v (h key v hwrites)).symm
  · exact hget

theorem get?_applyMasterCompatDefaults (newSettings : Store V) (key : Str) :
    (applyMasterCompatDefaults newSettings).get? key =
      if autoStartCore = key then some (ofBool true) else newSettings.get? key := by
  rw [applyMasterCompatDefaults, SortedMap.get?_put]
  by_cases h : autoStartCore = key
  · rw [if_pos h, if_pos (congrArg id h)]
  · rw [if_neg (show ¬id autoStartCore = id key from h), if_neg h]

private theorem migrate_writes {key : Str} {v : V} (h : Writes legacy key v) :
    (migrateOneScope legacy newSettings).1.get? key = some v := by
  obtain ⟨oldKey, value, hold, hmap, -⟩ := id h
  rcases get?_migrateOneScope legacy newSettings key with ⟨w, hwrites, hget⟩ | ⟨hnone, -⟩
  · rw [hget, h.unique hwrites]
  · exact absurd hmap (hnone oldKey value v hold)

/-- What has been migrated stays as it is when it is migrated once more from what it absorbs. -/
theorem finish_writes (hlooks : looksLikeLegacySettings legacy = true) {key : Str} {v : V} (h : Writes legacy key v) :
    (finish legacy newSettings).get? key = some v := by
  rw [finish, if_pos hlooks]
  dsimp only
  split_ifs
  · rw [get?_applyMasterCompatDefaults, if_neg h.slash.2.symm]
    exact migrate_writes h
  · exact migrate_writes h

theorem migrate_finish (hlooks : looksLikeLegacySettings legacy = true) (h : Absorbs legacy legacy') :
    (migrateOneScope legacy' (finish legacy newSettings)).1 = finish legacy newSettings :=
  migrate_absorbed h fun _ _ => finish_writes hlooks

private theorem defaults_finish (hlooks : looksLikeLegacySettings legacy = true)
    (hcount : ∃ key v, Writes legacy key v) :
    applyMasterCompatDefaults (finish legacy newSettings) = finish legacy newSettings := by
  rw [finish, if_pos hlooks]
  dsimp only
  rw [if_pos ((count_pos_iff _ _).mpr hcount)]
  refine Store.ext fun key => ?_
  simp only [get?_applyMasterCompatDefaults]
  split_ifs <;> rfl

theorem finish_finish (h : Absorbs legacy legacy')
    (hlooks : looksLikeLegacySettings legacy' = true → looksLikeLegacySettings legacy = true) :
    finish legacy' (finish legacy newSettings) = finish legacy newSettings := by
  rw [finish]
  split_ifs with hlegacy
  · dsimp only
    rw [migrate_finish (hlooks hlegacy) h]
    split_ifs with hcount
    · obtain ⟨key, v, hwrites⟩ := (count_pos_iff _ _).mp hcount
      exact defaults_finish (hlooks hlegacy) ⟨key, v, h key v hwrites⟩
    · rfl
  · rfl

theorem finish_congr (h : Agree legacy legacy') (newSettings : Store V) :
    finish legacy newSettings = finish legacy' newSettings := by
  have hmigrate : (migrateOneScope legacy newSettings).1 = (migrateOneScope legacy' newSettings).1 := by
    refine Store.ext fun key => ?_
    rcases get?_migrateOneScope legacy newSettings key with ⟨v, hwrites, hget⟩ | ⟨hnone, hget⟩
    · rw [hget, migrate_writes (h.symm.absorbs key v hwrites)]
    · rcases get?_migrateOneScope legacy' newSettings key with ⟨v, hwrites, -⟩ | ⟨-, hget'⟩
      · obtain ⟨oldKey, value, hold, hmap, -⟩ := h.absorbs key v hwrites
        exact absurd hmap (hnone oldKey value v hold)
      · rw [hget, hget']
  have hcount : 0 < (migrateOneScope legacy newSettings).2 ↔ 0 < (migrateOneScope legacy' newSettings).2 := by
    rw [count_pos_iff, count_pos_iff]
    exact ⟨fun ⟨key, v, hv⟩ => ⟨key, v, h.symm.absorbs key v hv⟩, fun ⟨key, v, hv⟩ => ⟨key, v, h.absorbs key v hv⟩⟩
  rw [finish, finish, h.looksLike]
  dsimp only
  rw [hmigrate, if_congr hcount rfl rfl]

/-- Migrating is resumed after the keys have been copied. -/
theorem finish_migrate (hlooks : looksLikeLegacySettings legacy = true) (newSettings : Store V) :
    finish legacy (migrateOneScope legacy newSettings).1 = finish legacy newSettings := by
  have hmigrate : (migrateOneScope legacy (migrateOneScope legacy newSettings).1).1 =
      (migrateOneScope legacy newSettings).1 :=
    migrate_absorbed (fun _ _ h => h) fun _ _ => migrate_writes
  rw [finish, finish, if_pos hlooks, if_pos hlooks]
  dsimp only
  rw [hmigrate]
  rfl

end Synergy.Gui.Migration
