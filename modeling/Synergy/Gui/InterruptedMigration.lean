import Synergy.Gui.SettingsMigration

/-! Which contents of the stores survive a migration that is cut off anywhere, and the cuts at which the others do
not. -/
namespace Synergy.Gui.Migration
open Lib
variable {V : Type} [SettingValue V] {host : Host} {s t : Stores V} {scope : Scope}

private theorem after_file (hlooks : looksLikeLegacySettings (legacySettings host t scope) = true) :
    (host.Clears scope → legacyFile host (after host t scope) scope = .empty) ∧
      (¬host.Clears scope → Agree (legacyFile host (after host t scope) scope) (legacyFile host t scope)) := by
  rw [(migrateScope_eq hlooks).2]
  obtain ⟨hnew, -, -, -, -, hlegacy⟩ := defaulted_frame host t scope
  rw [Stores.maybeClearLegacy]
  refine ⟨fun hclears => ?_, fun hclears key hkey => ?_⟩
  · obtain ⟨hshared, hwritable⟩ := hclears
    rw [hshared, hwritable, if_neg (by decide), if_pos rfl, legacyFile, hshared, if_neg (by decide)]
    exact Function.update_self _ _ _
  · split_ifs with hshared hwritable
    · rw [legacyFile, legacyFile, if_pos hshared, if_pos hshared, hnew]
      split_ifs
      · rw [(defaults_same _).1 key hkey, (migrate_same _ _).1 key hkey]
      · exact (migrate_same _ _).1 key hkey
    · exact absurd ⟨Bool.eq_false_iff.mpr hshared, hwritable⟩ hclears
    · rw [legacyFile, legacyFile, if_neg hshared, if_neg hshared, hlegacy]

/-! ### Cuts -/

private theorem runLegacyMigration_append (host : Host) (t : Stores V) : ∃ preferred : List (Stores V),
    runLegacyMigration host t =
      migrateScope host t .user ++ (migrateScope host (after host t .user) .system ++ preferred) := by
  rw [runLegacyMigration_eq]
  dsimp only
  split_ifs
  · exact ⟨_, List.append_assoc _ _ _⟩
  · exact ⟨[], by rw [List.append_nil]⟩

private theorem cutOff_user (hschema : t.schemaVersion < kCurrentSchemaVersion)
    (hlooks : looksLikeLegacySettings (legacySettings host t .user) = true) :
    cutOff host t 1 = t.removeBackup .user ∧ cutOff host t 5 = after host t .user := by
  obtain ⟨preferred, hrun⟩ := runLegacyMigration_append host t
  rw [cutOff, cutOff, migrateIfNeeded, if_neg (not_le.mpr hschema)]
  dsimp only
  rw [hrun, (migrateScope_eq hlooks).1]
  exact ⟨rfl, rfl⟩

private theorem cutOff_system (hschema : t.schemaVersion < kCurrentSchemaVersion)
    (hlooks : looksLikeLegacySettings (legacyFile host t .system) = true) :
    cutOff host t 10 = after host (after host t .user) .system := by
  obtain ⟨preferred, hrun⟩ := runLegacyMigration_append host t
  have hsystem : looksLikeLegacySettings (legacySettings host (after host t .user) .system) = true := by
    change looksLikeLegacySettings (legacyFile host _ .system) = true
    rw [(after_frame host t .user).2.2.2.2 .system (by decide)]
    exact hlooks
  rw [cutOff, migrateIfNeeded, if_neg (not_le.mpr hschema)]
  dsimp only
  rw [hrun, (migrateScope_eq (looks_user hlooks)).1, (migrateScope_eq hsystem).1]
  rfl

private theorem complete_frame (hschema : t.schemaVersion < kCurrentSchemaVersion) :
    (complete host t).preferSystem = (t.preferSystem || hasSystemScope (legacySettings host t .user)) ∧
      (complete host t).new .user = finish (legacySettings host t .user) (t.new .user) := by
  have hlast : (migrateScope host t .user ++ migrateScope host (after host t .user) .system).getLastD t =
      after host (after host t .user) .system := getLastD_append _ _ _
  obtain ⟨huser, -, hpreferUser, -, -⟩ := after_frame host t .user
  obtain ⟨-, hothers, hpreferSystem, -, -⟩ := after_frame host (after host t .user) .system
  have hnew := (hothers .user (by decide)).trans huser
  have hprefer := hpreferSystem.trans hpreferUser
  rw [← hlast] at hnew hprefer
  rw [complete, migrateIfNeeded, if_neg (not_le.mpr hschema)]
  dsimp only
  rw [List.getLastD_concat, runLegacyMigration_eq]
  dsimp only
  split_ifs with hscope
  · rw [List.getLastD_concat, hscope, Bool.or_true]
    exact ⟨rfl, hnew⟩
  · rw [Bool.eq_false_iff.mpr hscope, Bool.or_false]
    exact ⟨hprefer, hnew⟩

/-- With the user's file cleared, the next run removes its backup on account of the system's settings. -/
private theorem lost_backup (hschema : s.schemaVersion < kCurrentSchemaVersion) (hclears : host.Clears .user)
    (hfile : legacyFile host s .user ≠ .empty)
    (hlooks : looksLikeLegacySettings (legacyFile host s .system) = true) : ¬Survives host s [5, 1] := by
  rintro ⟨-, -, hkept⟩
  obtain ⟨key, v, hget⟩ := Store.exists_of_ne_empty hfile
  obtain ⟨-, -, -, hsame, hothers⟩ := after_frame host s .user
  have hcleared := (after_file (looks_user hlooks)).1 hclears
  have hsystem := hothers .system (by decide)
  have hagain : looksLikeLegacySettings (legacyFile host (after host s .user) .system) = true := by
    rw [hsystem]
    exact hlooks
  have hcut : cutOffRuns host s [5, 1] = (after host s .user).removeBackup .user := by
    change cutOff host (cutOff host s 5) 1 = _
    rw [(cutOff_user hschema (looks_user hlooks)).2]
    exact (cutOff_user (hsame ▸ hschema) (looks_user hagain)).1
  rw [hcut] at hkept
  have hgone := hkept .user key v hget (by
    change (legacyFile host (after host s .user) .user).get? key = none
    rw [hcleared]
    rfl)
  rw [Stores.removeBackup] at hgone
  dsimp only at hgone
  rw [Function.update_self] at hgone
  cases hgone

/-- With the user's file cleared, the next run does not know of the scope. -/
private theorem lost_scope_user (hschema : s.schemaVersion < kCurrentSchemaVersion) (hclears : host.Clears .user)
    (hlooks : looksLikeLegacySettings (legacyFile host s .system) = false)
    (hscope : hasSystemScope (legacySettings host s .user) = true) (hprefer : s.preferSystem = false) :
    ¬Survives host s [5] := by
  rintro ⟨-, hsame, -⟩
  have huser := looksLike_of_hasSystemScope hscope
  obtain ⟨-, -, hpreferUser, hschemaUser, hothers⟩ := after_frame host s .user
  have hview : Agree (legacySettings host (after host s .user) .user) (legacyFile host s .system) := fun key _ => by
    rw [get?_legacySettings, (after_file huser).1 hclears, hothers .system (by decide)]
    rfl
  have hnone : hasSystemScope (legacyFile host s .system) = false :=
    Bool.eq_false_iff.mpr fun h => Bool.eq_false_iff.mp hlooks (looksLike_of_hasSystemScope h)
  change (complete host (cutOff host s 5)).preferSystem = _ at hsame
  rw [(cutOff_user hschema huser).2, (complete_frame (hschemaUser ▸ hschema)).1, (complete_frame hschema).1,
    hview.hasSystemScope, hnone, hpreferUser, hprefer, hscope] at hsame
  cases hsame

/-- After both scopes the user's settings are those of its own file, if that has not been cleared. -/
private theorem view_after (hlooks : looksLikeLegacySettings (legacyFile host s .system) = true)
    (hclears : host.Clears .system) :
    (host.Clears .user → legacyFile host (after host (after host s .user) .system) .user = .empty) ∧
      (¬host.Clears .user →
        Agree (legacyFile host (after host (after host s .user) .system) .user) (legacyFile host s .user)) ∧
      Agree (legacySettings host (after host (after host s .user) .system) .user)
        (legacyFile host (after host (after host s .user) .system) .user) := by
  have hfile := (after_frame host (after host s .user) .system).2.2.2.2 .user (by decide)
  have hsystem : looksLikeLegacySettings (legacySettings host (after host s .user) .system) = true := by
    change looksLikeLegacySettings (legacyFile host _ .system) = true
    rw [(after_frame host s .user).2.2.2.2 .system (by decide)]
    exact hlooks
  obtain ⟨hcleared, hkept⟩ := after_file (looks_user hlooks)
  rw [← hfile] at hcleared hkept
  refine ⟨hcleared, hkept, fun key _ => ?_⟩
  rw [get?_legacySettings, (after_file hsystem).1 hclears]
  exact Option.or_none

/-- With the file of the system cleared, the next run does not know of the scope. -/
private theorem lost_scope_system (hschema : s.schemaVersion < kCurrentSchemaVersion) (hclears : host.Clears .system)
    (hlooks : looksLikeLegacySettings (legacyFile host s .system) = true)
    (hscope : hasSystemScope (legacySettings host s .user) = true) (hprefer : s.preferSystem = false)
    (hown : hasSystemScope (legacyFile host s .user) = false) : ¬Survives host s [10] := by
  rintro ⟨-, hsame, -⟩
  obtain ⟨hcleared, hkept, hview⟩ := view_after hlooks hclears
  obtain ⟨-, -, hpreferUser, hschemaUser, -⟩ := after_frame host s .user
  obtain ⟨-, -, hpreferSystem, hschemaSystem, -⟩ := after_frame host (after host s .user) .system
  have hnone : hasSystemScope (legacySettings host (after host (after host s .user) .system) .user) = false := by
    rw [hview.hasSystemScope]
    by_cases huser : host.Clears .user
    · rw [hcleared huser]
      rfl
    · rw [(hkept huser).hasSystemScope, hown]
  change (complete host (cutOff host s 10)).preferSystem = _ at hsame
  rw [cutOff_system hschema hlooks, (complete_frame (hschemaSystem ▸ hschemaUser ▸ hschema)).1,
    (complete_frame hschema).1, hnone, hpreferSystem, hpreferUser, hprefer, hscope] at hsame
  cases hsame

/-- With the file of the system cleared, the next run takes the user for a client. -/
private theorem lost_mode (hmodes : (ofInt CoreMode.server.toInt : V) ≠ ofInt CoreMode.client.toInt)
    (hschema : s.schemaVersion < kCurrentSchemaVersion) (huser : ¬host.Clears .user) (hclears : host.Clears .system)
    (hlooks : looksLikeLegacySettings (legacyFile host s .system) = true)
    (hnone : (legacyFile host s .user).get? groupServerChecked = none)
    {server client : V} (hserver : (legacyFile host s .system).get? groupServerChecked = some server)
    (hclient : (legacyFile host s .user).get? groupClientChecked = some client) (hserverOn : toBool server = true)
    (hclientOn : toBool client = true) : ¬Survives host s [10] := by
  rintro ⟨hsame, -, -⟩
  obtain ⟨-, hkept, hview⟩ := view_after hlooks hclears
  have hview := hview.trans (hkept huser)
  obtain ⟨-, -, -, hschemaUser, -⟩ := after_frame host s .user
  obtain ⟨-, -, -, hschemaSystem, -⟩ := after_frame host (after host s .user) .system
  have hlooksClient : looksLikeLegacySettings
      (legacySettings host (after host (after host s .user) .system) .user) = true := by
    rw [hview.looksLike, looksLikeLegacySettings, SortedMap.contains_eq_isSome_get? _ groupClientChecked, hclient]
    simp
  have hmap : mapLegacyKey groupClientChecked client = some (coreModeKey, ofInt CoreMode.client.toInt) := by
    rw [mapLegacyKey_client, if_pos hclientOn]
  have hmapServer : mapLegacyKey groupServerChecked server = some (coreModeKey, ofInt CoreMode.server.toInt) := by
    rw [mapLegacyKey_server, if_pos hserverOn]
  have hwritesClient : Writes (legacySettings host (after host (after host s .user) .system) .user) coreModeKey
      (ofInt CoreMode.client.toInt) := by
    refine ⟨groupClientChecked, client, (hview _ (by decide)).trans hclient, hmap,
      fun oldKey' value' v' hget' hmap' => ?_⟩
    rcases mapLegacyKey_injective hmap' hmap with rfl | ⟨rfl, -⟩ | ⟨rfl, -⟩
    · exact le_rfl
    · rw [hview _ (by decide), hnone] at hget'
      cases hget'
    · exact le_rfl
  have hwritesServer : Writes (legacySettings host s .user) coreModeKey (ofInt CoreMode.server.toInt) := by
    refine ⟨groupServerChecked, server, ?_, hmapServer, fun oldKey' value' v' hget' hmap' => ?_⟩
    · rw [get?_legacySettings, hnone, hserver]
      rfl
    · rcases mapLegacyKey_injective hmap' hmapServer with rfl | ⟨rfl, -⟩ | ⟨rfl, -⟩
      · exact le_rfl
      · exact le_rfl
      · decide
  change (complete host (cutOff host s 10)).new = _ at hsame
  have huserNew := congrArg (fun new => (new .user).get? coreModeKey) hsame
  rw [cutOff_system hschema hlooks, (complete_frame (hschemaSystem ▸ hschemaUser ▸ hschema)).2,
    (complete_frame hschema).2, finish_writes hlooksClient hwritesClient,
    finish_writes (looks_user hlooks) hwritesServer] at huserNew
  exact hmodes (Option.some.inj huserNew).symm

private theorem survivable_of_survives (hmodes : (ofInt CoreMode.server.toInt : V) ≠ ofInt CoreMode.client.toInt)
    (hschema : s.schemaVersion < kCurrentSchemaVersion) (h : ∀ cuts, Survives host s cuts) : Survivable host s where
  user hclears hfile := by
    have hlooks : looksLikeLegacySettings (legacyFile host s .system) = false :=
      Bool.eq_false_iff.mpr fun hlooks => lost_backup hschema hclears hfile hlooks (h _)
    refine ⟨hlooks, fun hscope => ?_⟩
    by_contra hprefer
    exact lost_scope_user hschema hclears hlooks hscope (Bool.eq_false_iff.mpr hprefer) (h _)
  scope hclears hlooks hscope := by
    by_contra hnone
    obtain ⟨hprefer, hown⟩ := not_or.mp hnone
    exact lost_scope_system hschema hclears hlooks hscope (Bool.eq_false_iff.mpr hprefer) (Bool.eq_false_iff.mpr hown)
      (h _)
  mode hclears hlooks hnone hserverOn := by
    by_contra hclientOn
    cases hserver : (legacyFile host s .system).get? groupServerChecked with
    | none =>
      rw [hserver] at hserverOn
      cases hserverOn
    | some server =>
      cases hclient : (legacyFile host s .user).get? groupClientChecked with
      | none =>
        rw [hclient] at hclientOn
        exact hclientOn rfl
      | some client =>
        rw [hserver] at hserverOn
        rw [hclient] at hclientOn
        have huser : ¬host.Clears .user := fun huser => by
          refine lost_backup hschema huser (fun hempty => ?_) hlooks (h _)
          rw [hempty] at hclient
          cases hclient
        exact lost_mode hmodes hschema huser hclears hlooks hnone hserver hclient hserverOn
          (Bool.not_eq_false _ ▸ hclientOn) (h _)

/-- The migration survives every cut exactly if clearing the legacy files takes nothing from the next run that it still
needs, and with the schema version written nothing changes any more. -/
theorem migration_survives_iff (hmodes : (ofInt CoreMode.server.toInt : V) ≠ ofInt CoreMode.client.toInt) :
    ((∀ cuts, Survives host s cuts) ↔ (s.schemaVersion < kCurrentSchemaVersion → Survivable host s)) ∧
      ∀ t : Stores V, kCurrentSchemaVersion ≤ t.schemaVersion → ∀ cuts, cutOffRuns host t cuts = t :=
  ⟨⟨fun h hschema => survivable_of_survives hmodes hschema h, survives_of_survivable⟩,
    fun _ h cuts => cutOffRuns_of_schema h cuts⟩

/-- Settings that are integers. -/
instance : SettingValue Int where
  toBool value := decide (value ≠ 0)
  ofBool b := b.toNat
  ofInt n := n

/-- A file with one legacy key. -/
def oneKey (key : Str) : Store Int := ⟨[(key, 1)], List.pairwise_singleton _ _⟩

/-- Legacy stores with one key each. -/
def legacyStores (user system : Store Int) : Stores Int where
  legacy
    | .user => user
    | .system => system
  new _ := .empty
  backup _ := .empty
  preferSystem := false
  schemaVersion := 0

/-- A system store that cannot be written to, and a shared user store. -/
theorem shared_stores_survive : Survives ⟨fun scope => scope = .user, fun _ => false⟩
    (legacyStores .empty (oneKey "startedBefore".toList)) [5, 1] := by
  apply (migration_survives_iff (by decide)).1.mpr
  refine fun _ => ⟨?_, ?_, ?_⟩
  · rintro ⟨hshared, -⟩
    cases hshared
  · rintro ⟨-, hwritable⟩
    cases hwritable
  · rintro ⟨-, hwritable⟩
    cases hwritable

/-- The backup of the user's settings is removed when the run is cut off before the schema version, or the choice of the
system scope is forgotten. -/
theorem cleared_stores_lost :
    (¬∀ cuts, Survives ⟨fun _ => false, fun _ => true⟩
      (legacyStores (oneKey "startedBefore".toList) (oneKey "startedBefore".toList)) cuts) ∧
    ¬∀ cuts, Survives ⟨fun _ => false, fun _ => true⟩
      (legacyStores (oneKey kLegacySystemScopeKey) .empty) cuts := by
  refine ⟨fun h => ?_, fun h => ?_⟩
  · exact lost_backup (by decide) ⟨rfl, rfl⟩ (by decide) (by decide) (h [5, 1])
  · exact lost_scope_user (by decide) ⟨rfl, rfl⟩ (by decide) (by decide) rfl (h [5])

end Synergy.Gui.Migration
