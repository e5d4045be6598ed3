import Synergy.Client.ClientOptions
import Synergy.Server.FocusSafety

/-! What the options of a configuration leave of the ones before it, on the server
and on the client. -/
namespace Synergy
open Synergy.Lib

/-- The members of the server that options set. -/
@[ext] structure OptionFields where
  switchWaitDelay : ℚ
  switchTwoTapDelay : ℚ
  switchNeedsShift : Bool
  switchNeedsControl : Bool
  switchNeedsAlt : Bool
  relativeMoves : Bool
  defaultLockToScreenState : Bool
  disableLockToScreen : Bool
  enableClipboard : Bool
  maximumClipboardSize : Nat
  deriving DecidableEq

namespace Server

def optionFields (s : Server) : OptionFields where
  switchWaitDelay := s.switchWaitDelay
  switchTwoTapDelay := s.switchTwoTapDelay
  switchNeedsShift := s.switchNeedsShift
  switchNeedsControl := s.switchNeedsControl
  switchNeedsAlt := s.switchNeedsAlt
  relativeMoves := s.relativeMoves
  defaultLockToScreenState := s.defaultLockToScreenState
  disableLockToScreen := s.disableLockToScreen
  enableClipboard := s.enableClipboard
  maximumClipboardSize := s.maximumClipboardSize

/-- Options under this id are among the global ones. -/
def HasOption (config : Config) (id : OptionID) : Prop := ∃ o ∈ config.globalOptions.entries, o.1 = id

instance (config : Config) (id : OptionID) : Decidable (HasOption config id) :=
  inferInstanceAs (Decidable (∃ o ∈ config.globalOptions.entries, o.1 = id))

private def ofOption {β : Type} (id : OptionID) (f : OptionValue → β) (o : OptionID × OptionValue) : Option β :=
  if o.1 = id then some (f o.2) else none

private theorem settle_ofOption {β : Type} (config : Config) (id : OptionID) (f : OptionValue → β) (x y : β) :
    settle (ofOption id f) x config.globalOptions.entries = settle (ofOption id f) y config.globalOptions.entries ↔
      HasOption config id ∨ x = y := by
  rw [settle_eq_iff]
  refine or_congr_left (exists_congr fun o => and_congr_right fun _ => ?_)
  unfold ofOption
  split <;> simp [*]

private def seconds (value : OptionValue) : ℚ := max 0 (value / 1000)

private def isSet (value : OptionValue) : Bool := value ≠ 0

/-- The members while options are gone through, relative moves being held back. -/
private def fieldsOf (r : Server × Bool) : OptionFields := { r.1.optionFields with relativeMoves := r.2 }

/-- What one option sets. -/
private def setting (d : OptionFields) (o : OptionID × OptionValue) : OptionFields where
  switchWaitDelay := (ofOption kOptionScreenSwitchDelay seconds o).getD d.switchWaitDelay
  switchTwoTapDelay := (ofOption kOptionScreenSwitchTwoTap seconds o).getD d.switchTwoTapDelay
  switchNeedsShift := (ofOption kOptionScreenSwitchNeedsShift isSet o).getD d.switchNeedsShift
  switchNeedsControl := (ofOption kOptionScreenSwitchNeedsControl isSet o).getD d.switchNeedsControl
  switchNeedsAlt := (ofOption kOptionScreenSwitchNeedsAlt isSet o).getD d.switchNeedsAlt
  relativeMoves := (ofOption kOptionRelativeMouseMoves isSet o).getD d.relativeMoves
  defaultLockToScreenState := (ofOption kOptionDefaultLockToScreenState isSet o).getD d.defaultLockToScreenState
  disableLockToScreen := (ofOption kOptionDisableLockToScreen isSet o).getD d.disableLockToScreen
  enableClipboard := (ofOption kOptionClipboardSharing isSet o).getD d.enableClipboard
  maximumClipboardSize := (ofOption kOptionClipboardSharingSize Int.toNat o).getD d.maximumClipboardSize

private theorem processOption_fields (r : Server × Bool) (o : OptionID × OptionValue) :
    fieldsOf (processOption r o) = setting (fieldsOf r) o := by
  obtain ⟨id, value⟩ := o
  unfold processOption
  dsimp only
  repeat' refine iteInduction (motive := fun q => fieldsOf q = setting (fieldsOf r) (id, value)) (fun h => ?_) fun h => ?_
  any_goals
    subst h
    rfl
  simp [setting, fieldsOf, ofOption, *]

private theorem processOptions_fields (e : Platform) (s : Server) : (s.processOptions e).optionFields =
    s.config.globalOptions.entries.foldl setting
      { s.optionFields with switchNeedsShift := false, switchNeedsControl := false, switchNeedsAlt := false } := by
  have hall : ∀ (options : List (OptionID × OptionValue)) (r : Server × Bool),
      fieldsOf (options.foldl processOption r) = options.foldl setting (fieldsOf r) := by
    intro options
    induction options with
    | nil => exact fun _ => rfl
    | cons o options ih =>
      intro r
      rw [List.foldl_cons, ih, processOption_fields, List.foldl_cons]
  have hrelative : ∀ (s : Server) newRelativeMoves, (s.setRelativeMoves e newRelativeMoves).optionFields =
      fieldsOf (s, newRelativeMoves) := by
    intro s newRelativeMoves
    have hstop : fieldsOf (if s.relativeMoves && !newRelativeMoves then s.stopRelativeMoves e else s, newRelativeMoves) =
        fieldsOf (s, newRelativeMoves) := by
      unfold stopRelativeMoves
      split
      · split <;> rfl
      · rfl
    exact hstop
  unfold processOptions
  rw [hrelative]
  exact hall _ _

/-- For each member that is not reset the options set it or it was the same before. -/
structure SetsAnew (config : Config) (s s' : Server) : Prop where
  switchWaitDelay : HasOption config kOptionScreenSwitchDelay ∨ s.switchWaitDelay = s'.switchWaitDelay
  switchTwoTapDelay : HasOption config kOptionScreenSwitchTwoTap ∨ s.switchTwoTapDelay = s'.switchTwoTapDelay
  relativeMoves : HasOption config kOptionRelativeMouseMoves ∨ s.relativeMoves = s'.relativeMoves
  defaultLockToScreenState :
    HasOption config kOptionDefaultLockToScreenState ∨ s.defaultLockToScreenState = s'.defaultLockToScreenState
  disableLockToScreen : HasOption config kOptionDisableLockToScreen ∨ s.disableLockToScreen = s'.disableLockToScreen
  enableClipboard : HasOption config kOptionClipboardSharing ∨ s.enableClipboard = s'.enableClipboard
  maximumClipboardSize : HasOption config kOptionClipboardSharingSize ∨ s.maximumClipboardSize = s'.maximumClipboardSize

private theorem part_eq_iff {β : Type} {config : Config} (part : OptionFields → β) {id : OptionID} {f : OptionValue → β}
    (h : ∀ d o, part (setting d o) = (ofOption id f o).getD (part d)) (d d' : OptionFields) :
    part (config.globalOptions.entries.foldl setting d) = part (config.globalOptions.entries.foldl setting d') ↔
      HasOption config id ∨ part d = part d' := by
  rw [settle_of_foldl h, settle_of_foldl h, settle_ofOption]

/-- What a configuration leaves of the options before it. -/
theorem processOptions_eq_iff (e e' : Platform) (config : Config) (s s' : Server) :
    ({ s with config := config }.processOptions e).optionFields = ({ s' with config := config }.processOptions e').optionFields ↔
      SetsAnew config s s' := by
  rw [processOptions_fields, processOptions_fields]
  constructor
  · intro h
    exact ⟨(part_eq_iff OptionFields.switchWaitDelay (fun _ _ => rfl) _ _).mp (congrArg OptionFields.switchWaitDelay h),
      (part_eq_iff OptionFields.switchTwoTapDelay (fun _ _ => rfl) _ _).mp (congrArg OptionFields.switchTwoTapDelay h),
      (part_eq_iff OptionFields.relativeMoves (fun _ _ => rfl) _ _).mp (congrArg OptionFields.relativeMoves h),
      (part_eq_iff OptionFields.defaultLockToScreenState (fun _ _ => rfl) _ _).mp (congrArg OptionFields.defaultLockToScreenState h),
      (part_eq_iff OptionFields.disableLockToScreen (fun _ _ => rfl) _ _).mp (congrArg OptionFields.disableLockToScreen h),
      (part_eq_iff OptionFields.enableClipboard (fun _ _ => rfl) _ _).mp (congrArg OptionFields.enableClipboard h),
      (part_eq_iff OptionFields.maximumClipboardSize (fun _ _ => rfl) _ _).mp (congrArg OptionFields.maximumClipboardSize h)⟩
  · intro h
    apply OptionFields.ext
    · exact (part_eq_iff OptionFields.switchWaitDelay (fun _ _ => rfl) _ _).mpr h.switchWaitDelay
    · exact (part_eq_iff OptionFields.switchTwoTapDelay (fun _ _ => rfl) _ _).mpr h.switchTwoTapDelay
    · exact (part_eq_iff OptionFields.switchNeedsShift (fun _ _ => rfl) _ _).mpr (.inr rfl)
    · exact (part_eq_iff OptionFields.switchNeedsControl (fun _ _ => rfl) _ _).mpr (.inr rfl)
    · exact (part_eq_iff OptionFields.switchNeedsAlt (fun _ _ => rfl) _ _).mpr (.inr rfl)
    · exact (part_eq_iff OptionFields.relativeMoves (fun _ _ => rfl) _ _).mpr h.relativeMoves
    · exact (part_eq_iff OptionFields.defaultLockToScreenState (fun _ _ => rfl) _ _).mpr h.defaultLockToScreenState
    · exact (part_eq_iff OptionFields.disableLockToScreen (fun _ _ => rfl) _ _).mpr h.disableLockToScreen
    · exact (part_eq_iff OptionFields.enableClipboard (fun _ _ => rfl) _ _).mpr h.enableClipboard
    · exact (part_eq_iff OptionFields.maximumClipboardSize (fun _ _ => rfl) _ _).mpr h.maximumClipboardSize

/-- Whatever the options before, what a configuration makes of the server's members and
a list of options of the client's depends on these alone if and only if all that is not
reset is set anew or was the same. -/
theorem options_forgotten_iff (e e' : Platform) (config : Config) (s s' : Server) (options : List Nat) (c c' : Client) :
    (({ s with config := config }.processOptions e).optionFields = ({ s' with config := config }.processOptions e').optionFields ∧
      c.resetOptions.setOptions options = c'.resetOptions.setOptions options) ↔
    SetsAnew config s s' ∧ Client.SetsAnew options c c' :=
  and_congr (processOptions_eq_iff e e' config s s') (Client.setOptions_eq_iff options c c')

/-- Two screens between which a switch takes a quarter of a second. -/
def delayedScreens : Config := (twoScreens.addOption [] kOptionScreenSwitchDelay 250).getD .empty

/-- The delay is taken out of the configuration and stays in force. -/
theorem options_not_forgotten : ¬ ∀ (e : Platform) (primaryClient : BaseClientProxy) (config before before' : Config),
    ((new e before primaryClient).reloadConfig e config).optionFields =
      ((new e before' primaryClient).reloadConfig e config).optionFields := by
  intro h
  have hdelay := congrArg OptionFields.switchWaitDelay (h .still ⟨0, ['a']⟩ twoScreens delayedScreens twoScreens)
  revert hdelay
  decide +kernel

end Server
end Synergy
