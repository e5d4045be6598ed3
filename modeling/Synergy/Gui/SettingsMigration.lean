import Synergy.Gui.SettingsStores

/-! Runs of the migration that are cut off: what they leave for the next run, and when nothing of the legacy settings is
lost. -/
namespace Synergy.Gui.Migration
open Lib
variable {V : Type} {host : Host} {s t : Stores V} {scope : Scope}

/-! ### Files -/

/-- The legacy file is cleared once it has been migrated. -/
def Host.Clears (host : Host) (scope : Scope) : Prop := host.sharesPath scope = false ∧ host.isWritable scope = true

theorem get?_legacySettings (host : Host) (s : Stores V) (key : Str) :
    (legacySettings host s .user).get? key =
      ((legacyFile host s .user).get? key).or ((legacyFile host s .system).get? key) :=
  SortedMap.get?_copyInto_some _ _ key

/-- The legacy settings of a file are those from the start, and none of its keys has gone. -/
structure Kept (host : Host) (s t : Stores V) (scope : Scope) : Prop where
  same : ∀ key, (host.sharesPath scope = true → '/' ∉ key) →
    (legacyFile host t scope).get? key = (legacyFile host s scope).get? key
  present : ∀ key, (legacyFile host t scope).get? key = none → (legacyFile host s scope).get? key = none

theorem Kept.agree (h : Kept host s t scope) : Agree (legacyFile host t scope) (legacyFile host s scope) :=
  fun key hkey => h.same key fun _ => hkey

/-- A file of the system that looks like a legacy one makes the user's settings look so. -/
theorem looks_user (h : looksLikeLegacySettings (legacyFile host s .system) = true) :
    looksLikeLegacySettings (legacySettings host s .user) = true := by
  have hcontains {key : Str} (hkey : (legacyFile host s .system).contains key = true) :
      (legacySettings host s .user).contains key = true := by
    rw [SortedMap.contains_eq_isSome_get?] at hkey ⊢
    rw [get?_legacySettings, Option.isSome_or, hkey, Bool.or_true]
  simp only [looksLikeLegacySettings, Bool.or_eq_true] at h ⊢
  exact h.imp (Or.imp (Or.imp hcontains hcontains) hcontains) hcontains

theorem looks_empty : looksLikeLegacySettings (.empty : Store V) = false := rfl

private theorem view_of_kept (hkept : Kept host s t .user) (hkept' : Kept host s t .system) :
    Agree (legacySettings host t .user) (legacySettings host s .user) := fun key hkey => by
  rw [get?_legacySettings, get?_legacySettings, hkept.agree key hkey, hkept'.agree key hkey]

private theorem setNew_self (t : Stores V) (scope : Scope) (settings : Store V) :
    (t.setNew scope settings).new scope = settings :=
  Function.update_self _ _ _

private theorem setNew_of_ne {sc : Scope} (h : sc ≠ scope) (t : Stores V) (settings : Store V) :
    (t.setNew scope settings).new sc = t.new sc :=
  Function.update_of_ne h _ _

private theorem file_setNew (settings : Store V) (sc : Scope) :
    legacyFile host (t.setNew scope settings) sc =
      if host.sharesPath sc = true ∧ sc = scope then settings else legacyFile host t sc := by
  rw [legacyFile, legacyFile]
  by_cases hshared : host.sharesPath sc = true
  · by_cases hsc : sc = scope
    · subst hsc
      rw [if_pos hshared, if_pos ⟨hshared, rfl⟩, setNew_self]
    · rw [if_pos hshared, if_neg (fun h => hsc h.2), if_pos hshared, setNew_of_ne hsc]
  · rw [if_neg hshared, if_neg (fun h => hshared h.1), if_neg hshared]
    rfl

private theorem Kept.setNew (hkept : Kept host s t scope) {settings : Store V}
    (hsame : ∀ key, '/' ∉ key → settings.get? key = (t.new scope).get? key)
    (hgrow : ∀ key, settings.get? key = none → (t.new scope).get? key = none) :
    Kept host s (t.setNew scope settings) scope := by
  refine ⟨fun key hkey => ?_, fun key hnone => ?_⟩
  · rw [file_setNew]
    split_ifs with hshared
    · rw [hsame key (hkey hshared.1), ← hkept.same key hkey, legacyFile, if_pos hshared.1]
    · exact hkept.same key hkey
  · rw [file_setNew] at hnone
    split_ifs at hnone with hshared
    · refine hkept.present key ?_
      rw [legacyFile, if_pos hshared.1]
      exact hgrow key hnone
    · exact hkept.present key hnone

private theorem get?_backup {key : Str} {v : V} (hshared : host.sharesPath scope = false) (hkept : Kept host s t scope)
    (hget : (legacyFile host s scope).get? key = some v) :
    ((t.backupLegacy host scope).backup scope).get? key = some v := by
  have hown : (legacyFile host t scope).get? key = some v := by
    rw [hkept.same key fun htrue => absurd htrue (Bool.eq_false_iff.mp hshared), hget]
  have hview : (legacySettings host t scope).get? key = some v := by
    cases scope with
    | system => exact hown
    | user =>
      rw [get?_legacySettings, hown]
      rfl
  rw [Stores.backupLegacy]
  dsimp only
  rw [Function.update_self, SortedMap.get?_copyInto_some, hview]
  rfl

/-! ### Between syncs -/

variable [SettingValue V]

/-- A user's file that is cleared leaves no legacy settings of the system behind it and takes no choice of the scope
with it. A file of the system that is cleared takes neither the choice of the scope nor that of the mode with it. -/
structure Survivable (host : Host) (s : Stores V) : Prop where
  user : host.Clears .user → legacyFile host s .user ≠ .empty →
    looksLikeLegacySettings (legacyFile host s .system) = false ∧
      (hasSystemScope (legacySettings host s .user) = true → s.preferSystem = true)
  scope : host.Clears .system → looksLikeLegacySettings (legacyFile host s .system) = true →
    hasSystemScope (legacySettings host s .user) = true →
      s.preferSystem = true ∨ hasSystemScope (legacyFile host s .user) = true
  mode : host.Clears .system → looksLikeLegacySettings (legacyFile host s .system) = true →
    (legacyFile host s .user).get? groupServerChecked = none →
    ((legacyFile host s .system).get? groupServerChecked).elim false toBool = true →
      ((legacyFile host s .user).get? groupClientChecked).elim false toBool = false

/-- The file has been cleared, after a backup and after all has been migrated. -/
structure Gone (host : Host) (s t : Stores V) (scope : Scope) : Prop where
  clears : host.Clears scope
  empty : legacyFile host t scope = .empty
  backup : ∀ key v, (legacyFile host s scope).get? key = some v → (t.backup scope).get? key = some v
  new : t.new scope = finish (legacySettings host s scope) (s.new scope)
  looks : looksLikeLegacySettings (legacySettings host s scope) = true

/-- What holds between the syncs of runs that started from some state. -/
structure Between (host : Host) (s t : Stores V) : Prop where
  file : ∀ scope, Kept host s t scope ∨ Gone host s t scope
  new : ∀ scope, t.new scope = finish (legacySettings host s scope) (s.new scope) ∨
    Agree (legacySettings host t scope) (legacySettings host s scope) ∧
      finish (legacySettings host s scope) (t.new scope) = finish (legacySettings host s scope) (s.new scope)
  prefer : (t.preferSystem || hasSystemScope (legacySettings host t .user)) =
    (s.preferSystem || hasSystemScope (legacySettings host s .user))
  preferred : s.preferSystem = true → t.preferSystem = true

theorem between_refl (host : Host) (s : Stores V) : Between host s s where
  file _ := Or.inl ⟨fun _ _ => rfl, fun _ h => h⟩
  new _ := Or.inr ⟨fun _ _ => rfl, rfl⟩
  prefer := rfl
  preferred h := h

private theorem Between.system_kept (h : Between host s t)
    (hsystem : looksLikeLegacySettings (legacyFile host s .system) = false) : Kept host s t .system :=
  (h.file .system).resolve_right fun hgone => Bool.eq_false_iff.mp hsystem hgone.looks

/-- An empty file is as it was when it has been cleared. -/
private theorem Between.user_file (h : Between host s t) :
    Kept host s t .user ∨ legacyFile host s .user ≠ .empty ∧ Gone host s t .user := by
  by_cases hfile : legacyFile host s .user = .empty
  · refine (h.file .user).elim Or.inl fun hgone => Or.inl ?_
    exact ⟨fun key _ => by rw [hgone.empty, hfile], fun key _ => by rw [hfile]; rfl⟩
  · exact (h.file .user).imp id fun hgone => ⟨hfile, hgone⟩

/-- A scope that looks like a legacy one is still in its file. -/
theorem Between.kept (h : Between host s t) (hs : Survivable host s)
    (hlooks : looksLikeLegacySettings (legacySettings host t scope) = true) : Kept host s t scope := by
  cases scope with
  | system =>
    refine (h.file .system).resolve_right fun hgone => ?_
    have hempty : legacySettings host t .system = .empty := hgone.empty
    rw [hempty, looks_empty] at hlooks
    cases hlooks
  | user =>
    refine h.user_file.resolve_right fun ⟨hfile, hgone⟩ => ?_
    obtain ⟨hsystem, -⟩ := hs.user hgone.clears hfile
    have hview : Agree (legacySettings host t .user) (legacyFile host s .system) := fun key hkey => by
      rw [get?_legacySettings, hgone.empty, (h.system_kept hsystem).agree key hkey]
      rfl
    rw [hview.looksLike, hsystem] at hlooks
    cases hlooks

private theorem view_of_gone (hkept : Kept host s t .user) (hgone : Gone host s t .system) :
    Agree (legacySettings host t .user) (legacyFile host s .user) := fun key hkey => by
  rw [get?_legacySettings, hgone.empty, hkept.agree key hkey]
  exact Option.or_none

/-- The user's own settings write what they write together with those of the system. -/
private theorem absorbs_user (hmode : (legacyFile host s .user).get? groupServerChecked = none →
      ((legacyFile host s .system).get? groupServerChecked).elim false toBool = true →
        ((legacyFile host s .user).get? groupClientChecked).elim false toBool = false) :
    Absorbs (legacySettings host s .user) (legacyFile host s .user) := by
  rintro key v ⟨oldKey, value, hget, hmap, hlast⟩
  refine ⟨oldKey, value, by rw [get?_legacySettings, hget]; rfl, hmap, fun oldKey' value' v' hget' hmap' => ?_⟩
  rw [get?_legacySettings] at hget'
  rcases Option.or_eq_some_iff.mp hget' with hown | ⟨hnone, hsystem⟩
  · exact hlast oldKey' value' v' hown hmap'
  rcases mapLegacyKey_injective hmap hmap' with rfl | ⟨rfl, rfl⟩ | ⟨rfl, rfl⟩
  · exact le_rfl
  · decide
  · have hclient := hmode hnone (by rw [hsystem]; exact mapLegacyKey_group (Or.inl hmap'))
    rw [hget] at hclient
    exact absurd (mapLegacyKey_group (Or.inr hmap)) (Bool.eq_false_iff.mp hclient)

/-- What cut runs leave of legacy settings writes nothing else than all of them. -/
theorem Between.absorbs (h : Between host s t) (hs : Survivable host s)
    (hlooks : looksLikeLegacySettings (legacySettings host t scope) = true) :
    looksLikeLegacySettings (legacySettings host s scope) = true ∧
      Absorbs (legacySettings host s scope) (legacySettings host t scope) := by
  have hkept := h.kept hs hlooks
  have hagree (hview : Agree (legacySettings host t scope) (legacySettings host s scope)) :
      looksLikeLegacySettings (legacySettings host s scope) = true ∧
        Absorbs (legacySettings host s scope) (legacySettings host t scope) :=
    ⟨hview.looksLike ▸ hlooks, hview.symm.absorbs⟩
  cases scope with
  | system => exact hagree hkept.agree
  | user =>
    rcases h.file .system with hkept' | hgone
    · exact hagree (view_of_kept hkept hkept')
    · refine ⟨looks_user hgone.looks, fun key v hwrites => ?_⟩
      exact absorbs_user (hs.mode hgone.clears hgone.looks) key v
        ((view_of_gone hkept hgone).symm.absorbs key v hwrites)

/-! ### One sync -/

/-- New settings under other keys are no change of the legacy ones. -/
theorem Between.setNew (h : Between host s t) (hkept : Kept host s t scope) {settings : Store V}
    (hsame : ∀ key, '/' ∉ key → settings.get? key = (t.new scope).get? key)
    (hgrow : ∀ key, settings.get? key = none → (t.new scope).get? key = none)
    (hnew : settings = finish (legacySettings host s scope) (s.new scope) ∨
      Agree (legacySettings host t scope) (legacySettings host s scope) ∧
        finish (legacySettings host s scope) settings = finish (legacySettings host s scope) (s.new scope)) :
    Between host s (t.setNew scope settings) := by
  have hfile (sc : Scope) : Agree (legacyFile host (t.setNew scope settings) sc) (legacyFile host t sc) := by
    intro key hkey
    rw [file_setNew]
    split_ifs with hshared
    · rw [hsame key hkey, legacyFile, if_pos hshared.1, hshared.2]
    · rfl
  have hview (sc : Scope) : Agree (legacySettings host (t.setNew scope settings) sc) (legacySettings host t sc) := by
    cases sc with
    | system => exact hfile .system
    | user =>
      intro key hkey
      rw [get?_legacySettings, get?_legacySettings, hfile .user key hkey, hfile .system key hkey]
  refine ⟨fun sc => ?_, fun sc => ?_, ?_, h.preferred⟩
  · by_cases hsc : sc = scope
    · exact Or.inl (hsc ▸ hkept.setNew hsame hgrow)
    · have hsc' : ¬(host.sharesPath sc = true ∧ sc = scope) := fun hand => hsc hand.2
      rcases h.file sc with hkept' | hgone
      · exact Or.inl ⟨fun key hkey => by rw [file_setNew, if_neg hsc', hkept'.same key hkey],
          fun key hnone => hkept'.present key (by rwa [file_setNew, if_neg hsc'] at hnone)⟩
      · refine Or.inr ⟨hgone.clears, by rw [file_setNew, if_neg hsc', hgone.empty], hgone.backup, ?_, hgone.looks⟩
        exact (setNew_of_ne hsc _ _).trans hgone.new
  · by_cases hsc : sc = scope
    · subst hsc
      rw [setNew_self]
      exact hnew.imp id fun hpending => ⟨(hview sc).trans hpending.1, hpending.2⟩
    · have hother : (t.setNew scope settings).new sc = t.new sc := Function.update_of_ne hsc _ _
      rw [hother]
      exact (h.new sc).imp id fun hpending => ⟨(hview sc).trans hpending.1, hpending.2⟩
  · rw [(hview .user).hasSystemScope]
    exact h.prefer

/-- The backup of a scope that is still in its file may change. -/
theorem Between.setBackup (h : Between host s t) (hkept : Kept host s t scope) (backup : Store V) :
    Between host s { t with backup := Function.update t.backup scope backup } := by
  refine ⟨fun sc => ?_, h.new, h.prefer, h.preferred⟩
  by_cases hsc : sc = scope
  · subst hsc
    exact Or.inl ⟨hkept.same, hkept.present⟩
  · rcases h.file sc with hkept' | hgone
    · exact Or.inl ⟨hkept'.same, hkept'.present⟩
    · refine Or.inr ⟨hgone.clears, hgone.empty, fun key v hget => ?_, hgone.new, hgone.looks⟩
      exact (congrArg (SortedMap.get? · key) (Function.update_of_ne hsc _ _)).trans (hgone.backup key v hget)

private theorem hasSystemScope_user (h : hasSystemScope (legacyFile host t .user) = true) :
    hasSystemScope (legacySettings host t .user) = true := by
  rw [hasSystemScope] at h ⊢
  rw [get?_legacySettings]
  cases hget : (legacyFile host t .user).get? kLegacySystemScopeKey with
  | none =>
    rw [hget] at h
    cases h
  | some value =>
    rw [hget] at h
    exact h

/-- A backed up file may be cleared when all has been migrated. -/
theorem Between.clear (h : Between host s t) (hs : Survivable host s) (hclears : host.Clears scope)
    (hlooks : looksLikeLegacySettings (legacySettings host s scope) = true) (hkept : Kept host s t scope)
    (hbackup : ∀ key v, (legacyFile host s scope).get? key = some v → (t.backup scope).get? key = some v)
    (hnew : t.new scope = finish (legacySettings host s scope) (s.new scope))
    (huser : t.new .user = finish (legacySettings host s .user) (s.new .user)) :
    Between host s { t with legacy := Function.update t.legacy scope .empty } := by
  have hself : legacyFile host { t with legacy := Function.update t.legacy scope .empty } scope = .empty := by
    rw [legacyFile, if_neg (Bool.eq_false_iff.mp hclears.1)]
    exact Function.update_self _ _ _
  have hother {sc : Scope} (hsc : sc ≠ scope) :
      legacyFile host { t with legacy := Function.update t.legacy scope .empty } sc = legacyFile host t sc := by
    rw [legacyFile, legacyFile]
    split_ifs
    · rfl
    · exact Function.update_of_ne hsc _ _
  refine ⟨fun sc => ?_, fun sc => ?_, ?_, h.preferred⟩
  · by_cases hsc : sc = scope
    · subst hsc
      exact Or.inr ⟨hclears, hself, hbackup, hnew, hlooks⟩
    · refine (h.file sc).imp (fun hkept' => ⟨?_, ?_⟩) fun hgone =>
        ⟨hgone.clears, ?_, hgone.backup, hgone.new, hgone.looks⟩
      · rw [hother hsc]
        exact hkept'.same
      · rw [hother hsc]
        exact hkept'.present
      · rw [hother hsc]
        exact hgone.empty
  · cases sc with
    | user => exact Or.inl huser
    | system =>
      cases scope with
      | system => exact Or.inl hnew
      | user =>
        refine (h.new .system).imp id fun hpending => ⟨?_, hpending.2⟩
        change Agree (legacyFile host _ .system) _
        rw [hother (by decide)]
        exact hpending.1
  · cases scope with
    | user =>
      by_cases hfile : legacyFile host s .user = .empty
      · have hview : Agree (legacySettings host { t with legacy := Function.update t.legacy .user .empty } .user)
            (legacySettings host t .user) := fun key hkey => by
          rw [get?_legacySettings, get?_legacySettings, hself, hother (by decide), hkept.agree key hkey, hfile]
        rw [hview.hasSystemScope]
        exact h.prefer
      · obtain ⟨hsystem, hpreferred⟩ := hs.user hclears hfile
        have hview : Agree (legacySettings host { t with legacy := Function.update t.legacy .user .empty } .user)
            (legacyFile host s .system) := fun key hkey => by
          rw [get?_legacySettings, hself, hother (by decide), (h.system_kept hsystem).agree key hkey]
          rfl
        have hnone : hasSystemScope (legacyFile host s .system) = false :=
          Bool.eq_false_iff.mpr fun hscope => Bool.eq_false_iff.mp hsystem (looksLike_of_hasSystemScope hscope)
        rw [hview.hasSystemScope, hnone, Bool.or_false]
        refine Bool.eq_iff_iff.mpr ⟨fun hprefer => ?_, fun hprefer => ?_⟩
        · exact h.prefer ▸ Bool.or_eq_true_iff.mpr (Or.inl hprefer)
        · exact h.preferred ((Bool.or_eq_true_iff.mp hprefer).elim id hpreferred)
    | system =>
      have hview : Agree (legacySettings host { t with legacy := Function.update t.legacy .system .empty } .user)
          (legacyFile host t .user) := fun key hkey => by
        rw [get?_legacySettings, hself, hother (by decide)]
        exact Option.or_none
      rw [hview.hasSystemScope, ← h.prefer]
      refine Bool.eq_iff_iff.mpr ⟨fun hprefer => ?_, fun hprefer => ?_⟩
      · exact Bool.or_eq_true_iff.mpr ((Bool.or_eq_true_iff.mp hprefer).imp id hasSystemScope_user)
      · rw [h.prefer] at hprefer
        have hscope : s.preferSystem = true ∨ hasSystemScope (legacyFile host s .user) = true :=
          (Bool.or_eq_true_iff.mp hprefer).elim Or.inl (hs.scope hclears hlooks)
        refine Bool.or_eq_true_iff.mpr (hscope.imp h.preferred fun hown => ?_)
        rcases h.user_file with hkept' | ⟨hfile, hgone⟩
        · exact hkept'.agree.hasSystemScope.trans hown
        · exact absurd hlooks (Bool.eq_false_iff.mp (hs.user hgone.clears hfile).1)

/-! ### One scope -/

theorem migrate_same (legacy newSettings : Store V) :
    (∀ key, '/' ∉ key → (migrateOneScope legacy newSettings).1.get? key = newSettings.get? key) ∧
      ∀ key, (migrateOneScope legacy newSettings).1.get? key = none → newSettings.get? key = none := by
  refine ⟨fun key hkey => ?_, fun key hnone => ?_⟩
  · rcases get?_migrateOneScope legacy newSettings key with ⟨v, hwrites, -⟩ | ⟨-, hget⟩
    · exact absurd hwrites.slash.1 hkey
    · exact hget
  · rcases get?_migrateOneScope legacy newSettings key with ⟨v, -, hget⟩ | ⟨-, hget⟩
    · rw [hget] at hnone
      cases hnone
    · rwa [hget] at hnone

theorem defaults_same (newSettings : Store V) :
    (∀ key, '/' ∉ key → (applyMasterCompatDefaults newSettings).get? key = newSettings.get? key) ∧
      ∀ key, (applyMasterCompatDefaults newSettings).get? key = none → newSettings.get? key = none := by
  have hslash : '/' ∈ autoStartCore := by decide
  refine ⟨fun key hkey => ?_, fun key hnone => ?_⟩
  · rw [get?_applyMasterCompatDefaults, if_neg]
    rintro rfl
    exact hkey hslash
  · rw [get?_applyMasterCompatDefaults] at hnone
    split_ifs at hnone with hkey
    exact hnone

/-- The state before the legacy file is cleared. -/
def defaulted (host : Host) (t : Stores V) (scope : Scope) : Stores V :=
  let (settings, count) := migrateOneScope (legacySettings host t scope) (t.new scope)
  let migrated := ((t.removeBackup scope).backupLegacy host scope).setNew scope settings
  if 0 < count then migrated.setNew scope (applyMasterCompatDefaults settings) else migrated

theorem defaulted_frame (host : Host) (t : Stores V) (scope : Scope) :
    (defaulted host t scope).new scope =
        (if 0 < (migrateOneScope (legacySettings host t scope) (t.new scope)).2 then
          applyMasterCompatDefaults (migrateOneScope (legacySettings host t scope) (t.new scope)).1
        else (migrateOneScope (legacySettings host t scope) (t.new scope)).1) ∧
      (∀ sc, sc ≠ scope → (defaulted host t scope).new sc = t.new sc) ∧
      (defaulted host t scope).backup = ((t.removeBackup scope).backupLegacy host scope).backup ∧
      (defaulted host t scope).preferSystem = t.preferSystem ∧
      (defaulted host t scope).schemaVersion = t.schemaVersion ∧ (defaulted host t scope).legacy = t.legacy := by
  rw [defaulted]
  dsimp only
  split_ifs
  · exact ⟨setNew_self _ _ _, fun sc hsc => (setNew_of_ne hsc _ _).trans (setNew_of_ne hsc _ _), rfl, rfl, rfl, rfl⟩
  · exact ⟨setNew_self _ _ _, fun sc hsc => setNew_of_ne hsc _ _, rfl, rfl, rfl, rfl⟩

theorem getLastD_of {α : Type*} {P : α → Prop} {a : α} {l : List α} (ha : P a) (hl : ∀ x ∈ l, P x) :
    P (l.getLastD a) :=
  List.forall_mem_cons.mpr ⟨ha, hl⟩ _ List.getLastD_mem_cons

theorem getLastD_append {α : Type*} (l m : List α) (a : α) : (l ++ m).getLastD a = m.getLastD (l.getLastD a) := by
  induction l generalizing a with
  | nil => rfl
  | cons x l ih => rw [List.cons_append, List.getLastD_cons, List.getLastD_cons, ih]

/-- The state after the migration of one scope. -/
def after (host : Host) (t : Stores V) (scope : Scope) : Stores V := (migrateScope host t scope).getLastD t

theorem migrateScope_eq (hlooks : looksLikeLegacySettings (legacySettings host t scope) = true) :
    migrateScope host t scope =
      [t.removeBackup scope, (t.removeBackup scope).backupLegacy host scope,
        ((t.removeBackup scope).backupLegacy host scope).setNew scope
          (migrateOneScope (legacySettings host t scope) (t.new scope)).1,
        defaulted host t scope, after host t scope] ∧
      after host t scope = (defaulted host t scope).maybeClearLegacy host scope := by
  rw [after, migrateScope, if_pos hlooks]
  exact ⟨rfl, rfl⟩

theorem runLegacyMigration_eq (host : Host) (t : Stores V) : runLegacyMigration host t =
    let migrated := migrateScope host t .user ++ migrateScope host (after host t .user) .system
    if hasSystemScope (legacySettings host t .user) then migrated ++ [{ migrated.getLastD t with preferSystem := true }]
    else migrated :=
  rfl

theorem after_frame (host : Host) (t : Stores V) (scope : Scope) :
    (after host t scope).new scope = finish (legacySettings host t scope) (t.new scope) ∧
      (∀ sc, sc ≠ scope → (after host t scope).new sc = t.new sc) ∧
      (after host t scope).preferSystem = t.preferSystem ∧ (after host t scope).schemaVersion = t.schemaVersion ∧
      (∀ sc, sc ≠ scope → legacyFile host (after host t scope) sc = legacyFile host t sc) := by
  by_cases hlooks : looksLikeLegacySettings (legacySettings host t scope) = true
  · rw [(migrateScope_eq hlooks).2]
    obtain ⟨hnew, hothers, -, hprefer, hschema, hlegacy⟩ := defaulted_frame host t scope
    have hfinish : (defaulted host t scope).new scope = finish (legacySettings host t scope) (t.new scope) := by
      rw [hnew, finish, if_pos hlooks]
    have hfile (sc : Scope) (hsc : sc ≠ scope) :
        legacyFile host (defaulted host t scope) sc = legacyFile host t sc := by
      rw [legacyFile, legacyFile, hothers sc hsc, hlegacy]
    rw [Stores.maybeClearLegacy]
    split_ifs with hshared hwritable
    · exact ⟨hfinish, hothers, hprefer, hschema, hfile⟩
    · refine ⟨hfinish, hothers, hprefer, hschema, fun sc hsc => ?_⟩
      rw [← hfile sc hsc, legacyFile, legacyFile]
      split_ifs
      · rfl
      · exact Function.update_of_ne hsc _ _
    · exact ⟨hfinish, hothers, hprefer, hschema, hfile⟩
  · rw [after, migrateScope, if_neg hlooks]
    exact ⟨by rw [finish, if_neg hlooks]; rfl, fun _ _ => rfl, rfl, rfl, fun _ _ => rfl⟩

/-- Migrating a scope comes to the same from what cut runs leave of it. -/
theorem Between.finish_view (h : Between host s t) (hs : Survivable host s) :
    finish (legacySettings host t scope) (t.new scope) = finish (legacySettings host s scope) (s.new scope) := by
  rcases h.new scope with hnew | ⟨hagree, hpending⟩
  · by_cases hlooks : looksLikeLegacySettings (legacySettings host t scope) = true
    · obtain ⟨hlooks', habsorbs⟩ := h.absorbs hs hlooks
      rw [hnew, finish_finish habsorbs fun _ => hlooks']
    · rw [← hnew, finish, if_neg hlooks]
  · rw [finish_congr hagree, hpending]

private theorem Between.migrated (h : Between host s t) (hs : Survivable host s)
    (hlooks : looksLikeLegacySettings (legacySettings host t scope) = true) :
    Between host s (((t.removeBackup scope).backupLegacy host scope).setNew scope
        (migrateOneScope (legacySettings host t scope) (t.new scope)).1) ∧
      Kept host s (((t.removeBackup scope).backupLegacy host scope).setNew scope
        (migrateOneScope (legacySettings host t scope) (t.new scope)).1) scope := by
  have hkept := h.kept hs hlooks
  obtain ⟨hlooks', habsorbs⟩ := h.absorbs hs hlooks
  have hbackedUp : Between host s ((t.removeBackup scope).backupLegacy host scope) :=
    (h.setBackup hkept .empty).setBackup ⟨hkept.same, hkept.present⟩ _
  have hkept' : Kept host s ((t.removeBackup scope).backupLegacy host scope) scope := ⟨hkept.same, hkept.present⟩
  obtain ⟨hsame, hgrow⟩ := migrate_same (legacySettings host t scope) (t.new scope)
  refine ⟨hbackedUp.setNew hkept' hsame hgrow ?_, hkept'.setNew hsame hgrow⟩
  refine (h.new scope).imp (fun hnew => ?_) fun ⟨hagree, hpending⟩ => ⟨hagree, ?_⟩
  · rw [hnew, migrate_finish hlooks' habsorbs]
  · rw [← finish_congr hagree, finish_migrate hlooks, finish_congr hagree, hpending]

private theorem Between.defaulted (h : Between host s t) (hs : Survivable host s)
    (hlooks : looksLikeLegacySettings (legacySettings host t scope) = true) :
    Between host s (defaulted host t scope) ∧ Kept host s (defaulted host t scope) scope ∧
      (defaulted host t scope).new scope = finish (legacySettings host s scope) (s.new scope) := by
  obtain ⟨hmigrated, hkept⟩ := h.migrated hs hlooks
  have hnew : (Migration.defaulted host t scope).new scope = finish (legacySettings host s scope) (s.new scope) := by
    rw [(defaulted_frame host t scope).1, ← h.finish_view hs, finish, if_pos hlooks]
  refine and_assoc.mp ⟨?_, hnew⟩
  rw [Migration.defaulted] at hnew ⊢
  dsimp only at hnew ⊢
  split_ifs at hnew ⊢
  · generalize (migrateOneScope (legacySettings host t scope) (t.new scope)).1 = settings at hmigrated hkept hnew ⊢
    have hself : (((t.removeBackup scope).backupLegacy host scope).setNew scope settings).new scope = settings :=
      setNew_self _ _ _
    obtain ⟨hsame, hgrow⟩ := defaults_same settings
    have hfinal : applyMasterCompatDefaults settings = finish (legacySettings host s scope) (s.new scope) := by
      rw [← hnew]
      exact (setNew_self _ _ _).symm
    refine ⟨hmigrated.setNew hkept ?_ ?_ (Or.inl hfinal), hkept.setNew ?_ ?_⟩
    all_goals
      rw [hself]
      assumption
  · exact ⟨hmigrated, hkept⟩

private theorem Between.after (h : Between host s t) (hs : Survivable host s)
    (hlooks : looksLikeLegacySettings (legacySettings host t scope) = true)
    (huser : scope = .system → t.new .user = finish (legacySettings host s .user) (s.new .user)) :
    Between host s (after host t scope) := by
  have hkept := h.kept hs hlooks
  obtain ⟨hdefaulted, hkeptDefaulted, hnew⟩ := h.defaulted hs hlooks
  obtain ⟨-, hothers, hbackup, -⟩ := defaulted_frame host t scope
  rw [(migrateScope_eq hlooks).2, Stores.maybeClearLegacy]
  split_ifs with hshared hwritable
  · exact hdefaulted
  · refine hdefaulted.clear hs ⟨Bool.eq_false_iff.mpr hshared, hwritable⟩
      (h.absorbs hs hlooks).1 hkeptDefaulted ?_ hnew ?_
    · intro key v hget
      rw [hbackup]
      exact get?_backup (Bool.eq_false_iff.mpr hshared) ⟨hkept.same, hkept.present⟩ hget
    · cases scope with
      | user => exact hnew
      | system => exact (hothers .user (by decide)).trans (huser rfl)
  · exact hdefaulted

/-- The states of one scope's migration. -/
theorem Between.migrateScope (h : Between host s t) (hs : Survivable host s)
    (huser : scope = .system → t.new .user = finish (legacySettings host s .user) (s.new .user)) :
    ∀ t' ∈ migrateScope host t scope,
      Between host s t' ∧ t'.preferSystem = t.preferSystem ∧ t'.schemaVersion = t.schemaVersion := by
  by_cases hlooks : looksLikeLegacySettings (legacySettings host t scope) = true
  · have hkept := h.kept hs hlooks
    have hremoved : Between host s (t.removeBackup scope) := h.setBackup hkept .empty
    have hbackedUp : Between host s ((t.removeBackup scope).backupLegacy host scope) :=
      hremoved.setBackup ⟨hkept.same, hkept.present⟩ _
    obtain ⟨-, -, -, hprefer, hschema, -⟩ := defaulted_frame host t scope
    obtain ⟨-, -, hprefer', hschema', -⟩ := after_frame host t scope
    rw [(migrateScope_eq hlooks).1]
    simp only [List.forall_mem_cons, List.not_mem_nil, false_imp_iff, implies_true, and_true]
    exact ⟨⟨hremoved, rfl, rfl⟩, ⟨hbackedUp, rfl, rfl⟩, ⟨(h.migrated hs hlooks).1, rfl, rfl⟩,
      ⟨(h.defaulted hs hlooks).1, hprefer, hschema⟩, h.after hs hlooks huser, hprefer', hschema'⟩
  · rw [Migration.migrateScope, if_neg hlooks]
    exact nofun

/-! ### Runs -/

/-- What a complete run leaves. -/
structure Settled (host : Host) (s t : Stores V) : Prop where
  schema : kCurrentSchemaVersion ≤ t.schemaVersion
  file : ∀ scope, Kept host s t scope ∨ Gone host s t scope
  new : ∀ scope, t.new scope = finish (legacySettings host s scope) (s.new scope)
  prefer : t.preferSystem = (s.preferSystem || hasSystemScope (legacySettings host s .user))

private theorem migrateIfNeeded_of_schema (h : kCurrentSchemaVersion ≤ t.schemaVersion) :
    migrateIfNeeded host t = [] := by
  rw [migrateIfNeeded, if_pos h]

/-- The states of a run before the schema version is written. -/
theorem Between.runLegacyMigration (h : Between host s t) (hs : Survivable host s) :
    (∀ t' ∈ runLegacyMigration host t, Between host s t' ∧ t'.schemaVersion = t.schemaVersion) ∧
      (∀ scope, ((runLegacyMigration host t).getLastD t).new scope =
        finish (legacySettings host s scope) (s.new scope)) ∧
      ((runLegacyMigration host t).getLastD t).preferSystem =
        (s.preferSystem || hasSystemScope (legacySettings host s .user)) := by
  have huser := h.migrateScope hs (show Scope.user = .system → _ from nofun)
  have hafter : Between host s (Migration.after host t .user) ∧
      (Migration.after host t .user).preferSystem = t.preferSystem ∧
      (Migration.after host t .user).schemaVersion = t.schemaVersion := getLastD_of ⟨h, rfl, rfl⟩ huser
  have hnewUser := (after_frame host t .user).1.trans (h.finish_view hs)
  have hsystem := hafter.1.migrateScope hs fun _ : Scope.system = .system => hnewUser
  have hphases : ∀ t' ∈ Migration.migrateScope host t .user ++
      Migration.migrateScope host (Migration.after host t .user) .system,
      Between host s t' ∧ t'.preferSystem = t.preferSystem ∧ t'.schemaVersion = t.schemaVersion := by
    intro t' ht'
    rcases List.mem_append.mp ht' with ht' | ht'
    · exact huser t' ht'
    · obtain ⟨hbetween, hprefer, hschema⟩ := hsystem t' ht'
      exact ⟨hbetween, hprefer.trans hafter.2.1, hschema.trans hafter.2.2⟩
  have hnew : ∀ scope, ((Migration.migrateScope host t .user ++
      Migration.migrateScope host (Migration.after host t .user) .system).getLastD t).new scope =
        finish (legacySettings host s scope) (s.new scope) := by
    obtain ⟨hnewSystem, hothers, -⟩ := after_frame host (Migration.after host t .user) .system
    rw [getLastD_append]
    intro scope
    cases scope with
    | user => exact (hothers .user (by decide)).trans hnewUser
    | system => exact hnewSystem.trans (hafter.1.finish_view hs)
  rw [runLegacyMigration_eq]
  generalize Migration.migrateScope host t .user ++
    Migration.migrateScope host (Migration.after host t .user) .system = migrated at hphases hnew ⊢
  have hlast := getLastD_of (P := fun t' => Between host s t' ∧ t'.preferSystem = t.preferSystem ∧
    t'.schemaVersion = t.schemaVersion) ⟨h, rfl, rfl⟩ hphases
  have hprefer := h.prefer
  dsimp only
  split_ifs with hscope
  · rw [hscope, Bool.or_true] at hprefer
    rw [List.getLastD_concat]
    refine ⟨fun t' ht' => ?_, hnew, hprefer⟩
    rcases List.mem_append.mp ht' with ht' | ht'
    · exact ⟨(hphases t' ht').1, (hphases t' ht').2.2⟩
    · rw [List.mem_singleton.mp ht']
      exact ⟨⟨fun sc => (hlast.1.file sc).imp (fun hkept => ⟨hkept.same, hkept.present⟩) fun hgone =>
        ⟨hgone.clears, hgone.empty, hgone.backup, hgone.new, hgone.looks⟩, hlast.1.new, hprefer, fun _ => rfl⟩,
        hlast.2.2⟩
  · rw [Bool.eq_false_iff.mpr hscope, Bool.or_false] at hprefer
    exact ⟨fun t' ht' => ⟨(hphases t' ht').1, (hphases t' ht').2.2⟩, hnew, hlast.2.1.trans hprefer⟩

/-- A run of the migration leaves a state between syncs, or all is done. -/
theorem Between.migrateIfNeeded (h : Between host s t) (hs : Survivable host s)
    (hschema : t.schemaVersion < kCurrentSchemaVersion) :
    (∀ t' ∈ migrateIfNeeded host t, Between host s t' ∧ t'.schemaVersion = t.schemaVersion ∨ Settled host s t') ∧
      Settled host s (complete host t) := by
  obtain ⟨hrun, hnew, hprefer⟩ := h.runLegacyMigration hs
  have hlast : Between host s ((Migration.runLegacyMigration host t).getLastD t) ∧
      ((Migration.runLegacyMigration host t).getLastD t).schemaVersion = t.schemaVersion :=
    getLastD_of ⟨h, rfl⟩ hrun
  have hsettled : Settled host s
      { (Migration.runLegacyMigration host t).getLastD t with schemaVersion := kCurrentSchemaVersion } :=
    ⟨le_rfl, fun sc => (hlast.1.file sc).imp (fun hkept => ⟨hkept.same, hkept.present⟩) fun hgone =>
      ⟨hgone.clears, hgone.empty, hgone.backup, hgone.new, hgone.looks⟩, hnew, hprefer⟩
  rw [complete, Migration.migrateIfNeeded, if_neg (not_le.mpr hschema)]
  dsimp only
  rw [List.getLastD_concat]
  refine ⟨fun t' ht' => ?_, hsettled⟩
  rcases List.mem_append.mp ht' with ht' | ht'
  · exact Or.inl (hrun t' ht')
  · rw [List.mem_singleton.mp ht']
    exact Or.inr hsettled

private theorem cutOff_of_schema (h : kCurrentSchemaVersion ≤ t.schemaVersion) (syncs : Nat) :
    cutOff host t syncs = t := by
  rw [cutOff, migrateIfNeeded_of_schema h, List.take_nil]
  rfl

/-- The invariant of runs that are cut off. -/
theorem cutOffRuns_between (hs : Survivable host s) (hschema : s.schemaVersion < kCurrentSchemaVersion)
    (cuts : List Nat) :
    Between host s (cutOffRuns host s cuts) ∧ (cutOffRuns host s cuts).schemaVersion = s.schemaVersion ∨
      Settled host s (cutOffRuns host s cuts) := by
  induction cuts using List.reverseRecOn with
  | nil => exact Or.inl ⟨between_refl host s, rfl⟩
  | append_singleton cuts syncs ih =>
    have hcons : cutOffRuns host s (cuts ++ [syncs]) = cutOff host (cutOffRuns host s cuts) syncs := by
      rw [cutOffRuns, List.foldl_append]
      rfl
    rw [hcons]
    generalize cutOffRuns host s cuts = t at ih
    rcases ih with ⟨hbetween, hsame⟩ | hsettled
    · refine getLastD_of (P := fun t' => Between host s t' ∧ t'.schemaVersion = s.schemaVersion ∨ Settled host s t')
        (Or.inl ⟨hbetween, hsame⟩) fun t' ht' => ?_
      exact ((hbetween.migrateIfNeeded hs (hsame ▸ hschema)).1 t' (List.mem_of_mem_take ht')).imp
        (fun hnext => ⟨hnext.1, hnext.2.trans hsame⟩) id
    · rw [cutOff_of_schema hsettled.schema]
      exact Or.inr hsettled

theorem cutOffRuns_of_schema (h : kCurrentSchemaVersion ≤ t.schemaVersion) (cuts : List Nat) :
    cutOffRuns host t cuts = t := by
  induction cuts with
  | nil => rfl
  | cons syncs cuts ih =>
    rw [cutOffRuns, List.foldl_cons, cutOff_of_schema h]
    exact ih

/-- Runs that are cut off leave what an uninterrupted run leaves to a complete one, and no legacy key has gone without
its backup. -/
def Survives (host : Host) (s : Stores V) (cuts : List Nat) : Prop :=
  (complete host (cutOffRuns host s cuts)).new = (complete host s).new ∧
    (complete host (cutOffRuns host s cuts)).preferSystem = (complete host s).preferSystem ∧
    ∀ scope key v, (legacyFile host s scope).get? key = some v →
      (legacyFile host (cutOffRuns host s cuts) scope).get? key = none →
      ((cutOffRuns host s cuts).backup scope).get? key = some v

theorem survives_of_survivable (hs : s.schemaVersion < kCurrentSchemaVersion → Survivable host s) (cuts : List Nat) :
    Survives host s cuts := by
  by_cases hschema : s.schemaVersion < kCurrentSchemaVersion
  · have hcomplete := ((between_refl host s).migrateIfNeeded (hs hschema) hschema).2
    have hrun : Settled host s (complete host (cutOffRuns host s cuts)) ∧
        ∀ scope, Kept host s (cutOffRuns host s cuts) scope ∨ Gone host s (cutOffRuns host s cuts) scope := by
      rcases cutOffRuns_between (hs hschema) hschema cuts with ⟨hbetween, hsame⟩ | hsettled
      · exact ⟨(hbetween.migrateIfNeeded (hs hschema) (hsame ▸ hschema)).2, hbetween.file⟩
      · rw [complete, migrateIfNeeded_of_schema hsettled.schema]
        exact ⟨hsettled, hsettled.file⟩
    refine ⟨funext fun scope => (hrun.1.new scope).trans (hcomplete.new scope).symm,
      hrun.1.prefer.trans hcomplete.prefer.symm, fun scope key v hget hnone => ?_⟩
    rcases hrun.2 scope with hkept | hgone
    · rw [hkept.present key hnone] at hget
      cases hget
    · exact hgone.backup key v hget
  · rw [Survives, cutOffRuns_of_schema (not_lt.mp hschema)]
    refine ⟨rfl, rfl, fun scope key v hget hnone => ?_⟩
    rw [hget] at hnone
    cases hnone

end Synergy.Gui.Migration
