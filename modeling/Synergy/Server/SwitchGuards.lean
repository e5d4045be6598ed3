import Synergy.Server.Step

/-! The conditions under which the cursor switches screens, at once or after a wait:
it is not locked to its screen and the modifiers that the options ask for are held. -/
namespace Synergy
open Synergy.Lib

namespace Server
variable {e : Platform} {s : Server}

/-- Nothing stands against a switch by the cursor. -/
def MaySwitch (e : Platform) (s : Server) : Prop := s.isLockedToScreen e = false ∧ s.modifiersHeld e = true

instance : Decidable (s.MaySwitch e) := inferInstanceAs (Decidable (_ ∧ _))

theorem refuseIf_passed {refused : Bool} {r : Server × Bool} (h : (refuseIf refused r).2 = false) :
    refused = false ∧ refuseIf refused r = r := by
  cases refused with
  | false => exact ⟨rfl, rfl⟩
  | true => cases h

/-- A test at an edge that lets the cursor switch leaves a state in which it may. -/
theorem isSwitchOkay_maySwitch {newScreen : Option BaseClientProxy} {dir : Direction} {x y xActive yActive : Int}
    (h : (s.isSwitchOkay e newScreen dir x y xActive yActive).2 = true) :
    MaySwitch e (s.isSwitchOkay e newScreen dir x y xActive yActive).1 := by
  cases newScreen with
  | none => cases h
  | some newScreen =>
    unfold isSwitchOkay at h ⊢
    dsimp only at h ⊢
    rw [Bool.not_eq_true'] at h
    obtain ⟨hheld, heq⟩ := refuseIf_passed h
    rw [heq] at h ⊢
    obtain ⟨hlocked, heq'⟩ := refuseIf_passed h
    rw [heq'] at h hheld ⊢
    simp only [h, Bool.not_false, Bool.true_and] at hlocked hheld
    exact ⟨hlocked, by simpa using hheld⟩

private theorem tryEdges_maySwitch {fuel : Nat} {xActive yActive : Int} {edges : List (Direction × Int × Int)}
    {m : Motion} {w : CursorSwitch} (h : tryEdges e fuel xActive yActive s edges = some m) (hw : m.switch = some w) :
    w.state.MaySwitch e := by
  induction edges generalizing s m with
  | nil =>
    obtain rfl := Option.some.inj h
    cases hw
  | cons edge rest ih =>
    rw [tryEdges] at h
    split at h
    · cases h
    · dsimp only at h
      split at h
      · rename_i hokay
        obtain rfl := Option.some.inj h
        obtain rfl := Option.some.inj hw
        exact isSwitchOkay_maySwitch hokay
      · obtain ⟨m', hm', rfl⟩ := Option.map_eq_some_iff.mp h
        exact ih hm' hw

private theorem onMouseMovePrimary_maySwitch {fuel : Nat} {x y : Int} {m : Motion} {w : CursorSwitch}
    (h : s.onMouseMovePrimary e fuel x y = some m) (hw : m.switch = some w) : w.state.MaySwitch e := by
  unfold onMouseMovePrimary at h
  split at h
  · obtain rfl := Option.some.inj h
    cases hw
  · dsimp only at h
    split at h
    · obtain rfl := Option.some.inj h
      cases hw
    · exact tryEdges_maySwitch h hw

private theorem onMouseMoveSecondary_maySwitch {fuel : Nat} {dx dy : Int} {m : Motion} {w : CursorSwitch}
    (h : s.onMouseMoveSecondary e fuel dx dy = some m) (hw : m.switch = some w) : w.state.MaySwitch e := by
  unfold onMouseMoveSecondary at h
  dsimp only at h
  split at h
  · obtain rfl := Option.some.inj h
    cases hw
  split at h
  · obtain rfl := Option.some.inj h
    cases hw
  split at h
  · obtain rfl := Option.some.inj h
    cases hw
  · unfold crossSide at h
    split at h
    · cases h
    · dsimp only at h
      split at h
      · rename_i hokay
        obtain rfl := Option.some.inj h
        obtain rfl := Option.some.inj hw
        exact isSwitchOkay_maySwitch hokay
      · obtain rfl := Option.some.inj h
        cases hw

/-- The end of a wait switches to the pending screen unless the cursor is locked. -/
theorem handleSwitchWaitTimeout_switch (e : Platform) (s : Server) : (s.handleSwitchWaitTimeout e).switch =
    if s.isLockedToScreen e then none else s.mSwitchScreen.map fun d => ⟨s, d, s.switchWaitX, s.switchWaitY⟩ := by
  unfold handleSwitchWaitTimeout
  split
  · rename_i hnone
    simp [hnone, stay]
  · rename_i d hd
    dsimp only
    split
    · rfl
    · simp [hd]

/-- When a wait ends with a switch pending and the cursor not locked to its screen,
the modifiers are held that the options ask for. -/
def HeldAtTimeout (s : Server) (input : Platform × ServerEvent) : Prop :=
  input.2 = .switchWaitTimeout → s.mSwitchScreen ≠ none → s.isLockedToScreen input.1 = false →
    s.modifiersHeld input.1 = true

instance (input : Platform × ServerEvent) : Decidable (s.HeldAtTimeout input) :=
  decidable_of_iff ((match input.2 with | .switchWaitTimeout => true | _ => false) = true → s.mSwitchScreen ≠ none →
      s.isLockedToScreen input.1 = false → s.modifiersHeld input.1 = true) <| by
    unfold HeldAtTimeout
    cases input.2 <;> simp

/-- Whatever switch the cursor makes while an event is handled, it may make. -/
def SwitchesGuarded (s : Server) (input : Platform × ServerEvent) : Prop :=
  ∀ fuel m, s.handle input.1 fuel input.2 = some m → ∀ w, m.switch = some w → w.state.MaySwitch input.1

theorem timeout_guarded_iff (e : Platform) (s : Server) :
    s.SwitchesGuarded (e, .switchWaitTimeout) ↔ s.HeldAtTimeout (e, .switchWaitTimeout) := by
  constructor
  · intro h _ hpending hlocked
    obtain ⟨d, hd⟩ := Option.ne_none_iff_exists'.mp hpending
    refine (h 0 _ rfl ⟨s, d, s.switchWaitX, s.switchWaitY⟩ ?_).2
    rw [handleSwitchWaitTimeout_switch, hlocked, hd]
    rfl
  · intro h fuel m hm w hw
    obtain rfl := Option.some.inj hm
    rw [handleSwitchWaitTimeout_switch] at hw
    cases hlocked : s.isLockedToScreen e with
    | true => simp [hlocked] at hw
    | false =>
      obtain ⟨d, hd, rfl⟩ := Option.map_eq_some_iff.mp (by simpa [hlocked] using hw)
      exact ⟨hlocked, h rfl (by simp [hd]) hlocked⟩

theorem switchesGuarded_iff (s : Server) (input : Platform × ServerEvent) :
    s.SwitchesGuarded input ↔ s.HeldAtTimeout input := by
  obtain ⟨e, ev⟩ := input
  by_cases hev : ev = .switchWaitTimeout
  · subst hev
    exact timeout_guarded_iff e s
  refine iff_of_true (fun fuel m hm w hw => ?_) fun h => absurd h hev
  cases ev with
  | motionPrimary x y => exact onMouseMovePrimary_maySwitch hm hw
  | motionSecondary dx dy => exact onMouseMoveSecondary_maySwitch hm hw
  | switchWaitTimeout => exact absurd rfl hev
  | shapeChanged client =>
    simp only [handle, handleShapeChanged] at hm
    split at hm
    · obtain rfl := Option.some.inj hm
      cases hw
    split at hm
    · obtain rfl := Option.some.inj hm
      cases hw
    split at hm
    · exact onMouseMovePrimary_maySwitch hm hw
    · exact onMouseMoveSecondary_maySwitch hm hw
  | switchInDirection direction =>
    obtain ⟨t, -, rfl⟩ := Option.map_eq_some_iff.mp hm
    cases hw
  | _ =>
    obtain rfl := Option.some.inj hm
    cases hw

/-- Along a run every switch by the cursor is one that it may make exactly when the
modifiers are held whenever a wait ends in a switch. -/
theorem switches_guarded_iff {tr : List ((Platform × ServerEvent) × Server)} (hr : Trace Step s tr) :
    EachStep (fun s input _ => s.HeldAtTimeout input) s tr ↔ EachStep (fun s input _ => s.SwitchesGuarded input) s tr :=
  hr.eachStep_iff (fun _ => True) (fun s input _ _ _ => (s.switchesGuarded_iff input).symm)
    (fun _ _ _ _ _ _ => trivial) trivial

/-- Two screens side by side with a delayed switch that needs the shift key. -/
def delayedShift : Config :=
  let screens := (Config.empty.addScreen ['a']).bind (·.addScreen ['b'])
  let linked := screens.bind (·.connect ['a'] .right .full ['b'] .full)
  let delayed := linked.bind (·.addOption [] kOptionScreenSwitchDelay 250)
  (delayed.bind (·.addOption [] kOptionScreenSwitchNeedsShift 1)).getD .empty

/-- The cursor waits at the edge while the shift key is held. -/
theorem switches_guarded_shift :
    let e : Platform := { Platform.still with toggleMask := keyModifierShift }
    EachStep (fun s input _ => s.SwitchesGuarded input) (new e delayedShift ⟨0, ['a']⟩)
      (runTrace (serve 4) (new e delayedShift ⟨0, ['a']⟩)
        [(e, .adoptClient ⟨1, ['b']⟩), (e, .motionPrimary 99 50), (e, .switchWaitTimeout)]) :=
  (switches_guarded_iff (trace_serve (by decide +kernel))).mp (by decide +kernel)

/-- The cursor waits at the edge and nobody holds the shift key. -/
theorem switches_not_guarded :
    ¬ ∀ (e : Platform) (config : Config) (primaryClient : BaseClientProxy) (tr : List ((Platform × ServerEvent) × Server)),
      Trace Step (new e config primaryClient) tr →
        EachStep (fun s input _ => s.SwitchesGuarded input) (new e config primaryClient) tr := by
  intro h
  have hrun := h .still delayedShift ⟨0, ['a']⟩ (runTrace (serve 4) (new .still delayedShift ⟨0, ['a']⟩)
    [(.still, .adoptClient ⟨1, ['b']⟩), (.still, .motionPrimary 99 50), (.still, .switchWaitTimeout)])
    (trace_serve (by decide +kernel))
  have hheld := (switchesGuarded_iff _ _).mp hrun.2.2.1
  revert hheld
  decide +kernel

end Server
end Synergy
