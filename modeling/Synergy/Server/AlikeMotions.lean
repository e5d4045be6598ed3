import Synergy.Server.ClipboardContents

/-! Events that can switch between screens, handled in two states that only differ in
what the clipboards hold. -/
namespace Synergy
open Synergy.Lib

namespace Server
variable {e : Platform} {s t u v : Server} {k : BaseClientProxy → ClipboardID → Str} {c : Contents}

/-- From a state while sharing is off, and from the same state with other contents, the
two results differ in contents at most, unless one of them leaves a changed clipboard. -/
def Alike (e : Platform) (k : BaseClientProxy → ClipboardID → Str) (c : Contents) (s t t' : Server) : Prop :=
  s.SharingOff → s.Filled → (s.withContents c).Filled → ¬ LeavesChanged e s t →
    ¬ LeavesChanged (e.withClipboards k) (s.withContents c) t' → ∃ d, t' = t.withContents d

theorem Steady.withContents (h : s.Steady t) (c : Contents) : (s.withContents c).Steady (t.withContents c) := by
  refine ⟨?_, h.hushed⟩
  obtain ⟨hprimary, hconfig, hclients, hactive, hclipboards, henable, hsize⟩ := by
    simpa only [Server.sharing, Prod.mk.injEq] using h.sharing
  unfold Server.sharing Server.withContents
  rw [hprimary, hconfig, hclients, hactive, hclipboards, henable, hsize]

theorem LeavesChanged.congr_iff (hu : s.Steady u) (ht : v.Steady t) : LeavesChanged e s t ↔ LeavesChanged e u v := by
  have henable : u.enableClipboard = s.enableClipboard := congrArg (·.2.2.2.2.2.1) hu.sharing
  unfold LeavesChanged
  rw [hu.active, hu.primaryClient, henable, ht.active, hu.anyPrimaryChanged_iff]

namespace Alike

theorem of_eq {t' : Server} (h : t' = t.withContents c) : Alike e k c s t t' := fun _ _ _ _ _ => ⟨c, h⟩

theorem after {t' : Server} (hu : s.Steady u) (h : Alike e k c u t t') : Alike e k c s t t' := by
  intro hoff hs hc hl hl'
  have huc := hu.withContents c
  refine h (hu.sharingOff_iff.mpr hoff) (hu.filled hs) (huc.filled hc) ?_ ?_
  · rwa [LeavesChanged.congr_iff hu (.refl t)] at hl
  · rwa [LeavesChanged.congr_iff huc (.refl t')] at hl'

/-- What is done after a switch does not look at the contents. -/
theorem before {f f' : Server → Server} {v' : Server} (hf : ∀ t : Server, t.Steady (f t))
    (hf' : ∀ t : Server, t.Steady (f' t)) (hfd : ∀ (t : Server) d, f' (t.withContents d) = (f t).withContents d) (h : Alike e k c s v v') : Alike e k c s (f v) (f' v') := by
  intro hoff hs hc hl hl'
  rw [LeavesChanged.congr_iff (.refl s) (hf v)] at hl
  rw [LeavesChanged.congr_iff (.refl _) (hf' v')] at hl'
  obtain ⟨d, rfl⟩ := h hoff hs hc hl hl'
  exact ⟨d, hfd v d⟩

theorem ite {p : Prop} [Decidable p] {t' u' : Server} (ht : Alike e k c s t t') (hu : Alike e k c s u u') :
    Alike e k c s (if p then t else u) (if p then t' else u') := by
  split
  · exact ht
  · exact hu

theorem switchScreen (he : e.Marshalled) (hk : (e.withClipboards k).Marshalled) (s : Server) (dst : BaseClientProxy)
    (x y : Int) (forScreensaver : Bool) : Alike e k c s (s.switchScreen e dst x y forScreensaver)
      ((s.withContents c).switchScreen (e.withClipboards k) dst x y forScreensaver) := by
  intro hoff hs hc hl hl'
  rw [switchScreen_eq] at hl hl' ⊢
  rw [switchScreen_eq]
  rw [moved_withContents, left_withContents] at hl' ⊢
  have hleaves : (s.withContents c).leaves (e.withClipboards k) (s.withContents c).active = s.leaves e s.active := rfl
  rw [hleaves] at hl' ⊢
  simp only [withContents_active, withContents_primaryClient, withContents_enableClipboard] at hl' ⊢
  split at hl
  · rename_i hdst
    rw [if_pos hdst, if_pos hdst]
    exact ⟨c, rfl⟩
  rename_i hdst
  rw [if_neg hdst] at hl' ⊢
  rw [if_neg hdst]
  split at hl
  swap
  · rename_i hstay
    rw [if_neg hstay, if_neg hstay]
    exact ⟨c, rfl⟩
  rename_i hgo
  rw [if_pos hgo] at hl' ⊢
  rw [if_pos hgo]
  have hleft := left_steady (e := e) s x y
  have hleft' := hleft.withContents c
  have hoff' : (s.left e x y).SharingOff := hleft.sharingOff_iff.mpr hoff
  split at hl
  · rename_i hup
    rw [if_pos hup] at hl' ⊢
    rw [if_pos hup]
    have hnot : ¬ (s.left e x y).AnyPrimaryChanged e := by
      intro hany
      obtain ⟨l, hcut⟩ := cutOver_calls (e := e) ((s.left e x y).updateClipboards e) dst x y forScreensaver
      refine hl ⟨hup.1, ?_, hup.2, hleft.anyPrimaryChanged_iff.mp hany⟩
      rw [hcut]
      exact fun hd => hdst (hup.1.trans hd.symm)
    have hnot' : ¬ ((s.left e x y).withContents c).AnyPrimaryChanged (e.withClipboards k) := by
      intro hany
      obtain ⟨l, hcut⟩ := cutOver_calls (e := e.withClipboards k)
        (((s.left e x y).withContents c).updateClipboards (e.withClipboards k)) dst x y forScreensaver
      refine hl' ⟨hup.1, ?_, hup.2, hleft'.anyPrimaryChanged_iff.mp hany⟩
      rw [hcut]
      exact fun hd => hdst (hup.1.trans hd.symm)
    have hread := (updateClipboards_cases (e := e) (s.left e x y)).resolve_right fun h => hnot h.1
    have hread' := (updateClipboards_cases (e := e.withClipboards k) ((s.left e x y).withContents c)).resolve_right
      fun h => hnot' h.1
    have hfilled := hread.2.filled he (hleft.filled hs)
    have hfilled' := hread'.2.filled hk (hleft'.filled hc)
    obtain ⟨d, hd, -⟩ := hread.2
    obtain ⟨d', hd', -⟩ := hread'.2
    rw [hd] at hfilled ⊢
    rw [hd'] at hfilled' ⊢
    rw [cutOver_eq (by exact hoff') hfilled, cutOver_eq (by exact hoff') hfilled']
    exact ⟨d', rfl⟩
  · rename_i hup
    rw [if_neg hup, if_neg hup, cutOver_eq hoff' (hleft.filled hs), cutOver_eq (by exact hoff') (hleft'.filled hc)]
    exact ⟨c, rfl⟩

variable (he : e.Marshalled) (hk : (e.withClipboards k).Marshalled)
include he hk

theorem jumpToScreen (s : Server) (newScreen : BaseClientProxy) :
    Alike e k c s (s.jumpToScreen e newScreen) ((s.withContents c).jumpToScreen (e.withClipboards k) newScreen) := by
  have hsave : s.Steady { s with jumpCursorPos := Function.update s.jumpCursorPos s.active (s.x, s.y) } := .of_still rfl rfl
  exact after hsave (switchScreen he hk _ newScreen _ _ false)

theorem handleSwitchWaitTimeout (s : Server) : Alike e k c s (s.handleSwitchWaitTimeout e).server
    ((s.withContents c).handleSwitchWaitTimeout (e.withClipboards k)).server := by
  unfold Server.handleSwitchWaitTimeout
  simp only [withContents_mSwitchScreen, show (s.withContents c).isLockedToScreen (e.withClipboards k) =
    s.isLockedToScreen e from rfl]
  split
  · exact of_eq rfl
  · split
    · exact of_eq (stopSwitch_withContents c s)
    · exact switchScreen he hk s _ _ _ false

theorem onScreensaver (s : Server) (activated : Bool) : Alike e k c s (s.onScreensaver e activated)
    ((s.withContents c).onScreensaver (e.withClipboards k) activated) := by
  have hsave : Alike e k c s (s.saveForScreensaver e) ((s.withContents c).saveForScreensaver (e.withClipboards k)) := by
    have hrecord : s.Steady { s with activeSaver := some s.active, xSaver := s.x, ySaver := s.y } := .of_still rfl rfl
    exact after hrecord (.ite (switchScreen he hk _ _ _ _ true) (of_eq rfl))
  have hback : Alike e k c s (s.returnFromScreensaver e) ((s.withContents c).returnFromScreensaver (e.withClipboards k)) := by
    unfold returnFromScreensaver
    simp only [withContents_activeSaver]
    split
    · exact of_eq rfl
    · rename_i screen hsaver
      refine .ite (of_eq rfl) ?_
      have hclamp : ∀ x y, s.Steady { s with xSaver := x, ySaver := y } := fun x y => .of_still rfl rfl
      exact after (hclamp _ _) (switchScreen he hk _ screen _ _ false)
  have hforget : ∀ t : Server, t.Steady { t with activeSaver := none } := fun t => .of_still rfl rfl
  have htell : ∀ t : Server, t.Steady (t.callEach fun _ => .screensaver activated) := fun t => (callEach_calm t fun _ => ⟨rfl, rfl⟩).steady
  unfold Server.onScreensaver
  refine before (f := (·.callEach fun _ => .screensaver activated)) htell htell (fun _ _ => rfl) (.ite hsave ?_)
  exact before (f := fun t => { t with activeSaver := none }) hforget hforget (fun _ _ => rfl) hback

end Alike
end Server
end Synergy

/-! Motions of the cursor and all other events, handled in two states that only differ
in what the clipboards hold. -/
namespace Synergy
open Synergy.Lib

namespace Server
variable {e : Platform} {s t : Server} {k : BaseClientProxy → ClipboardID → Str} {c : Contents}

private theorem mapLoop_withClipboards (s : Server) (fuel : Nat) (side : Direction) (steps : Nat) (first : BaseClientProxy)
    (last : Shape) (p : Int × Int) : s.mapLoop (e.withClipboards k) fuel side steps first last p =
      s.mapLoop e fuel side steps first last p := by
  have hneighbor : ∀ first dir p, s.getNeighbor (e.withClipboards k) fuel first dir p = s.getNeighbor e fuel first dir p :=
    fun _ _ _ => rfl
  induction steps generalizing first last p with
  | zero => rfl
  | succ steps ih => simp only [mapLoop, Platform.withClipboards_shape, hneighbor, ih]

private theorem mapToNeighbor_withClipboards (s : Server) (fuel : Nat) (src : BaseClientProxy) (side : Direction)
    (p : Int × Int) : s.mapToNeighbor (e.withClipboards k) fuel src side p = s.mapToNeighbor e fuel src side p := by
  unfold mapToNeighbor
  simp only [show s.getNeighbor (e.withClipboards k) fuel src side p = s.getNeighbor e fuel src side p from rfl,
    Platform.withClipboards_shape, mapLoop_withClipboards]
  rfl

/-- The neighbor is found in the same place. -/
private theorem mapToNeighbor_alike {fuel fuel' : Nat} {src : BaseClientProxy} {side : Direction} {p : Int × Int}
    {r r' : Option BaseClientProxy × Int × Int} (h : s.mapToNeighbor e fuel src side p = some r)
    (h' : (s.withContents c).mapToNeighbor (e.withClipboards k) fuel' src side p = some r') : r' = r := by
  have hsame : (s.withContents c).mapToNeighbor (e.withClipboards k) fuel' src side p = s.mapToNeighbor e fuel' src side p := by
    rw [mapToNeighbor_withClipboards]
    exact mapToNeighbor_congr (s := s) (t := s.withContents c) rfl rfl rfl src side p
  exact mapToNeighbor_unique (hsame ▸ h') h

private theorem testEdge_okay (s : Server) (dir : Direction) (newScreen : Option BaseClientProxy) (x y xActive yActive : Int) :
    ((s.withContents c).testEdge (e.withClipboards k) dir newScreen x y xActive yActive).okay =
      (s.testEdge e dir newScreen x y xActive yActive).okay := by
  unfold testEdge
  rw [isSwitchOkay_withContents]

private theorem testEdge_after (s : Server) (dir : Direction) (newScreen : Option BaseClientProxy) (x y xActive yActive : Int) :
    ((s.withContents c).testEdge (e.withClipboards k) dir newScreen x y xActive yActive).after =
      (s.testEdge e dir newScreen x y xActive yActive).after.withContents c := by
  unfold testEdge
  rw [isSwitchOkay_withContents]

namespace Alike
variable (he : e.Marshalled) (hk : (e.withClipboards k).Marshalled)
include he hk

private theorem tryEdges {fuel fuel' : Nat} {xActive yActive : Int} {edges : List (Direction × Int × Int)} {s : Server}
    {m m' : Motion} (h : Server.tryEdges e fuel xActive yActive s edges = some m)
    (h' : Server.tryEdges (e.withClipboards k) fuel' xActive yActive (s.withContents c) edges = some m') :
    Alike e k c s m.server m'.server := by
  induction edges generalizing s m m' with
  | nil =>
    obtain rfl := Option.some.inj h
    obtain rfl := Option.some.inj h'
    exact of_eq rfl
  | cons edge rest ih =>
    obtain ⟨dir, p⟩ := edge
    rw [Server.tryEdges] at h h'
    split at h
    · cases h
    rename_i newScreen x y hn
    split at h'
    · cases h'
    rename_i hn'
    cases mapToNeighbor_alike hn hn'
    dsimp only at h h'
    rw [testEdge_okay, testEdge_after] at h'
    split at h
    · rename_i dst hokay
      rw [hokay] at h'
      obtain rfl := Option.some.inj h
      obtain rfl := Option.some.inj h'
      exact after (testEdge_calm s _ _ _ _ _ _).steady (switchScreen he hk _ _ _ _ false)
    · rename_i hno
      split at h'
      · rename_i dst hokay
        exact (hno dst hokay rfl).elim
      · obtain ⟨n, hrest, rfl⟩ := Option.map_eq_some_iff.mp h
        obtain ⟨n', hrest', rfl⟩ := Option.map_eq_some_iff.mp h'
        have hgo : Alike e k c _ n.server n'.server := ih hrest hrest'
        exact after (testEdge_calm s _ _ _ _ _ _).steady hgo

theorem onMouseMovePrimary {fuel fuel' : Nat} {x y : Int} {m m' : Motion} (h : s.onMouseMovePrimary e fuel x y = some m)
    (h' : (s.withContents c).onMouseMovePrimary (e.withClipboards k) fuel' x y = some m') :
    Alike e k c s m.server m'.server := by
  unfold Server.onMouseMovePrimary at h h'
  simp only [withContents_active, withContents_primaryClient] at h'
  split at h
  · rename_i hnot
    rw [if_pos hnot] at h'
    obtain rfl := Option.some.inj h
    obtain rfl := Option.some.inj h'
    exact of_eq rfl
  rename_i hprimary
  rw [if_neg hprimary] at h'
  have hrecord : (s.withContents c).recordMotion x y (x - (s.withContents c).x) (y - (s.withContents c).y) =
      (s.recordMotion x y (x - s.x) (y - s.y)).withContents c := rfl
  have hedges : ∀ t : Server, (t.withContents c).edgesAt (e.withClipboards k) x y = t.edgesAt e x y := fun _ => rfl
  rw [hrecord] at h'
  dsimp only at h h'
  rw [hedges] at h'
  split at h
  · rename_i hnone
    rw [if_pos hnone] at h'
    obtain rfl := Option.some.inj h
    obtain rfl := Option.some.inj h'
    exact of_eq (noSwitch_withContents k c _ x y)
  · rename_i hsome
    rw [if_neg hsome] at h'
    exact after (recordMotion_calm s x y _ _).steady (tryEdges he hk h h')

private theorem crossSide {fuel fuel' : Nat} {xOld yOld dx dy : Int} {dir : Direction} {s : Server} {m m' : Motion}
    (h : s.crossSide e fuel xOld yOld dx dy dir = some m)
    (h' : (s.withContents c).crossSide (e.withClipboards k) fuel' xOld yOld dx dy dir = some m') :
    Alike e k c s m.server m'.server := by
  unfold Server.crossSide at h h'
  split at h
  · cases h
  rename_i newScreen x y hn
  split at h'
  · cases h'
  rename_i hn'
  cases mapToNeighbor_alike hn hn'
  have hmove : s.Steady (s.moveTo x y) := .of_still rfl rfl
  have hmoved : (s.withContents c).moveTo x y = (s.moveTo x y).withContents c := rfl
  rw [hmoved] at h'
  dsimp only at h
  simp only [withContents_active, withContents_x, withContents_y, Platform.withClipboards_shape] at h'
  rw [testEdge_okay, testEdge_after] at h'
  split at h
  · rename_i dst hokay
    rw [hokay] at h'
    obtain rfl := Option.some.inj h
    obtain rfl := Option.some.inj h'
    exact after (hmove.trans (testEdge_calm _ _ _ _ _ _ _).steady) (switchScreen he hk _ _ _ _ false)
  · rename_i hno
    split at h'
    · rename_i dst hokay
      exact (hno dst hokay rfl).elim
    · obtain rfl := Option.some.inj h
      obtain rfl := Option.some.inj h'
      exact of_eq (clampMove_withContents k c _ _ _ _ _)

theorem onMouseMoveSecondary {fuel fuel' : Nat} {dx dy : Int} {m m' : Motion}
    (h : s.onMouseMoveSecondary e fuel dx dy = some m)
    (h' : (s.withContents c).onMouseMoveSecondary (e.withClipboards k) fuel' dx dy = some m') :
    Alike e k c s m.server m'.server := by
  have hadjust : ∀ d, adjustMotion (e.withClipboards k) d = adjustMotion e d := fun _ => rfl
  have hlocked : (s.withContents c).isLockedToScreenServer = s.isLockedToScreenServer := rfl
  unfold Server.onMouseMoveSecondary at h h'
  simp only [hadjust, hlocked, withContents_active, withContents_primaryClient, withContents_relativeMoves,
    withContents_x, withContents_y] at h h'
  split at h
  · rename_i hprimary
    rw [if_pos hprimary] at h'
    obtain rfl := Option.some.inj h
    obtain rfl := Option.some.inj h'
    exact of_eq rfl
  rename_i hprimary
  rw [if_neg hprimary] at h'
  split at h
  · rename_i hrelative
    rw [if_pos hrelative] at h'
    obtain rfl := Option.some.inj h
    obtain rfl := Option.some.inj h'
    exact of_eq rfl
  rename_i hrelative
  rw [if_neg hrelative] at h'
  generalize hu : s.recordMotion (s.x + adjustMotion e dx) (s.y + adjustMotion e dy) (adjustMotion e dx)
    (adjustMotion e dy) = u at h
  have hrecord : (s.withContents c).recordMotion (s.x + adjustMotion e dx) (s.y + adjustMotion e dy) (adjustMotion e dx)
      (adjustMotion e dy) = u.withContents c := hu ▸ rfl
  have hsteady : s.Steady u := hu ▸ (recordMotion_calm s _ _ _ _).steady
  have hside : (u.withContents c).exitSide (e.withClipboards k) = u.exitSide e := rfl
  rw [hrecord, hside] at h'
  split at h
  · rename_i hnone
    rw [hnone] at h'
    obtain rfl := Option.some.inj h
    obtain rfl := Option.some.inj h'
    refine of_eq ?_
    simp only [stay, leaveBorder_withContents, clampMove_withContents]
  · rename_i dir hdir
    rw [hdir] at h'
    exact after hsteady (crossSide he hk h h')

/-- Whatever the event that is not about a clipboard. -/
theorem handle {fuel fuel' : Nat} {ev : ServerEvent} {m m' : Motion}
    (hgrabbed : ∀ client id sequenceNumber, ev ≠ .clipboardGrabbed client id sequenceNumber)
    (hchanged : ∀ client id sequenceNumber, ev ≠ .clipboardChanged client id sequenceNumber)
    (h : s.handle e fuel ev = some m) (h' : (s.withContents c).handle (e.withClipboards k) fuel' ev = some m') :
    Alike e k c s m.server m'.server := by
  cases ev with
  | switchInDirection direction =>
    obtain ⟨t, ht, rfl⟩ := Option.map_eq_some_iff.mp h
    obtain ⟨t', ht', rfl⟩ := Option.map_eq_some_iff.mp h'
    unfold handleSwitchInDirectionEvent at ht ht'
    have hsame : (s.withContents c).getNeighbor (e.withClipboards k) fuel' (s.withContents c).active direction
        ((s.withContents c).x, (s.withContents c).y) = s.getNeighbor e fuel' s.active direction (s.x, s.y) :=
      getNeighbor_congr (s := s) (t := s.withContents c) rfl rfl s.active direction (s.x, s.y)
    rw [hsame] at ht'
    split at ht
    · cases ht
    · rename_i hn
      split at ht'
      · cases ht'
      · obtain rfl := Option.some.inj ht
        obtain rfl := Option.some.inj ht'
        exact of_eq rfl
      · rename_i hn'
        cases getNeighbor_unique hn hn'
    · rename_i hn
      split at ht'
      · cases ht'
      · rename_i hn'
        cases getNeighbor_unique hn hn'
      · rename_i hn'
        cases getNeighbor_unique hn hn'
        obtain rfl := Option.some.inj ht
        obtain rfl := Option.some.inj ht'
        exact jumpToScreen he hk s _
  | motionPrimary x y => exact onMouseMovePrimary he hk h h'
  | motionSecondary dx dy => exact onMouseMoveSecondary he hk h h'
  | shapeChanged client =>
    simp only [Server.handle, handleShapeChanged] at h h'
    rw [takeCursorPos_withContents] at h'
    simp only [withContents_clientSet, withContents_primaryClient, withContents_active, withContents_x,
      withContents_y] at h'
    split at h
    · rename_i hnot
      rw [if_pos hnot] at h'
      obtain rfl := Option.some.inj h
      obtain rfl := Option.some.inj h'
      exact of_eq rfl
    rename_i hin
    rw [if_neg hin] at h'
    split at h
    · rename_i hother
      rw [if_pos hother] at h'
      obtain rfl := Option.some.inj h
      obtain rfl := Option.some.inj h'
      exact of_eq rfl
    rename_i hprimary
    rw [if_neg hprimary] at h'
    split at h
    · rename_i hactive
      rw [if_pos hactive] at h'
      exact after (takeCursorPos_calm s client).steady (onMouseMovePrimary he hk h h')
    · rename_i hactive
      rw [if_neg hactive] at h'
      exact after (takeCursorPos_calm s client).steady (onMouseMoveSecondary he hk h h')
  | clipboardGrabbed client id sequenceNumber => exact absurd rfl (hgrabbed client id sequenceNumber)
  | clipboardChanged client id sequenceNumber => exact absurd rfl (hchanged client id sequenceNumber)
  | adoptClient client =>
    obtain rfl := Option.some.inj h
    obtain rfl := Option.some.inj h'
    exact of_eq (adoptClient_withContents k c s client)
  | clientDisconnected client =>
    obtain rfl := Option.some.inj h
    obtain rfl := Option.some.inj h'
    exact of_eq (handleClientDisconnected_withContents k c s client)
  | reloadConfig config =>
    obtain rfl := Option.some.inj h
    obtain rfl := Option.some.inj h'
    exact of_eq (setConfig_withContents k c { s with config := config })
  | disconnect =>
    obtain rfl := Option.some.inj h
    obtain rfl := Option.some.inj h'
    exact .ite (of_eq (closeClients_withContents k c s .empty)) (of_eq rfl)
  | screensaver activated =>
    obtain rfl := Option.some.inj h
    obtain rfl := Option.some.inj h'
    exact onScreensaver he hk s activated
  | switchToScreen screen =>
    obtain rfl := Option.some.inj h
    obtain rfl := Option.some.inj h'
    simp only [stay, handleSwitchToScreenEvent, withContents_clients]
    split
    · exact of_eq rfl
    · exact jumpToScreen he hk s _
  | toggleScreen =>
    obtain rfl := Option.some.inj h
    obtain rfl := Option.some.inj h'
    have hnext : (nextName (s.withContents c).clients.keys ((s.withContents c).getName (s.withContents c).active)).bind
        (s.withContents c).clients.get? = (nextName s.clients.keys (s.getName s.active)).bind s.clients.get? := rfl
    simp only [stay, handleToggleScreenEvent]
    refine .ite (of_eq rfl) ?_
    rw [hnext]
    split
    · exact of_eq rfl
    · exact jumpToScreen he hk s _
  | lockCursorToScreen mode =>
    obtain rfl := Option.some.inj h
    obtain rfl := Option.some.inj h'
    exact of_eq (handleLockCursorToScreenEvent_withContents k c s mode)
  | switchWaitTimeout =>
    obtain rfl := Option.some.inj h
    obtain rfl := Option.some.inj h'
    exact handleSwitchWaitTimeout he hk s
  | keyDown info | keyUp info =>
    obtain rfl := Option.some.inj h
    obtain rfl := Option.some.inj h'
    exact of_eq (relayKey_withContents c s _ _)
  | clientCloseTimeout client | keyboardBroadcast mode screens | keyRepeat info | buttonDown button | buttonUp button
    | wheel xDelta yDelta =>
    obtain rfl := Option.some.inj h
    obtain rfl := Option.some.inj h'
    exact of_eq rfl

end Alike
end Server
end Synergy
