import Synergy.Server.AlikeMotions
import Synergy.Server.FocusSafety

/-! While sharing is off the server tells no client what a clipboard holds, unless an
update comes in that passes all other tests or the primary screen is left with a
clipboard changed. -/
namespace Synergy
open Synergy.Lib

namespace Server
variable {e : Platform} {s t : Server} {k : BaseClientProxy → ClipboardID → Str} {c : Contents}

/-- The two ways round the switch and the size that turn sharing off. -/
def Leaks (e : Platform) (s : Server) : ServerEvent → Server → Prop
  | .clipboardChanged client id sequenceNumber, _ => client ∈ s.clientSet ∧ s.TakesUp e client id sequenceNumber
  | _, t => LeavesChanged e s t

instance : ∀ (ev : ServerEvent) (t : Server), Decidable (Leaks e s ev t)
  | .clipboardChanged client id sequenceNumber, _ =>
    inferInstanceAs (Decidable (client ∈ s.clientSet ∧ s.TakesUp e client id sequenceNumber))
  | .adoptClient _, t | .clientDisconnected _, t | .clientCloseTimeout _, t | .reloadConfig _, t | .disconnect, t
  | .screensaver _, t | .switchToScreen _, t | .switchInDirection _, t | .toggleScreen, t | .keyboardBroadcast _ _, t
  | .lockCursorToScreen _, t | .motionPrimary _ _, t | .motionSecondary _ _, t | .switchWaitTimeout, t
  | .shapeChanged _, t | .clipboardGrabbed _ _ _, t | .keyDown _, t | .keyUp _, t | .keyRepeat _, t | .buttonDown _, t
  | .buttonUp _, t | .wheel _ _, t => inferInstanceAs (Decidable (LeavesChanged e s t))

private theorem handleClipboardGrabbed_off (hoff : s.SharingOff) (grabber : BaseClientProxy) (id : ClipboardID)
    (sequenceNumber : UInt32) : s.handleClipboardGrabbed e grabber id sequenceNumber = s := by
  have hrefuse : (!s.enableClipboard || decide (s.maximumClipboardSize = 0)) = true := by
    rcases hoff with h | h <;> simp [h]
  exact if_pos hrefuse

/-- One event while sharing is off. -/
theorem step_hushed_iff {ev : ServerEvent} (he : e.Marshalled) (hs : s.Filled) (hoff : s.SharingOff)
    (h : s.Step (e, ev) t) : s.Hushed t ↔ ¬ Leaks e s ev t := by
  obtain ⟨-, fuel, m, hm, rfl⟩ := h
  cases ev with
  | clipboardGrabbed client id sequenceNumber =>
    obtain rfl := Option.some.inj hm
    simp only [stay, handleClipboardGrabbed_off hoff]
    exact iff_of_true (.refl s) fun hl => hl.2.1 hl.1
  | clipboardChanged client id sequenceNumber =>
    obtain rfl := Option.some.inj hm
    simp only [stay, handleClipboardChanged, Leaks]
    split
    · rename_i hout
      exact iff_of_true (.refl s) fun hl => hout hl.1
    · rename_i hin
      rw [onClipboardChanged_hushed_iff, and_iff_right (not_not.mp hin)]
  | _ => exact ((handle_course (by simp) (by simp) hm).hushed_iff he hoff hs).2

/-- Whatever the event, no clipboard is kept empty-handed. -/
theorem step_filled {ev : ServerEvent} (he : e.Marshalled) (hs : s.Filled) (h : s.Step (e, ev) t) : t.Filled := by
  obtain ⟨-, fuel, m, hm, rfl⟩ := h
  cases ev with
  | clipboardGrabbed client id sequenceNumber =>
    obtain rfl := Option.some.inj hm
    have hassign : (s.assignClipboard client id sequenceNumber).Filled := by
      intro j
      unfold assignClipboard contents
      dsimp only
      by_cases hj : j = id
      · subst hj
        rw [Function.update_self]
        exact List.cons_ne_nil _ _
      · rw [Function.update_of_ne hj]
        exact hs j
    have htold : ∀ m, ((s.assignClipboard client id sequenceNumber).callEach m).Filled := fun _ => hassign
    simp only [stay, handleClipboardGrabbed]
    refine iteInduction (motive := Filled) (fun _ => hs) fun _ => ?_
    refine iteInduction (motive := Filled) (fun _ => hs) fun _ => ?_
    refine iteInduction (motive := Filled) (fun _ => hs) fun _ => ?_
    exact iteInduction (motive := Filled) (fun _ => onClipboardChanged_filled he (htold _) _ _ _) fun _ => hassign
  | clipboardChanged client id sequenceNumber =>
    obtain rfl := Option.some.inj hm
    exact iteInduction (motive := Filled) (fun _ => hs) fun _ => onClipboardChanged_filled he hs _ _ _
  | _ => exact (handle_course (by simp) (by simp) hm).filled he hs

/-- One event in two states that only differ in contents. -/
theorem step_alike {ev : ServerEvent} {t' : Server} (he : e.Marshalled) (hk : (e.withClipboards k).Marshalled)
    (hs : s.Filled) (hc : (s.withContents c).Filled) (hoff : s.SharingOff) (h : s.Step (e, ev) t)
    (h' : (s.withContents c).Step (e.withClipboards k, ev) t') (hl : ¬ Leaks e s ev t)
    (hl' : ¬ Leaks (e.withClipboards k) (s.withContents c) ev t') : ∃ d, t' = t.withContents d := by
  obtain ⟨-, fuel, m, hm, rfl⟩ := h
  obtain ⟨-, fuel', m', hm', rfl⟩ := h'
  cases ev with
  | clipboardGrabbed client id sequenceNumber =>
    obtain rfl := Option.some.inj hm
    obtain rfl := Option.some.inj hm'
    have hoff' : (s.withContents c).SharingOff := hoff
    simp only [stay, handleClipboardGrabbed_off hoff, handleClipboardGrabbed_off hoff']
    exact ⟨c, rfl⟩
  | clipboardChanged client id sequenceNumber =>
    obtain rfl := Option.some.inj hm
    obtain rfl := Option.some.inj hm'
    simp only [stay, handleClipboardChanged, withContents_clientSet]
    by_cases hin : client ∈ s.clientSet
    · rw [if_neg (not_not.mpr hin), if_neg (not_not.mpr hin)]
      have hread := (onClipboardChanged_cases (e := e) s client id sequenceNumber).resolve_right fun h => hl ⟨hin, h.1⟩
      have hread' := (onClipboardChanged_cases (e := e.withClipboards k) (s.withContents c) client id
        sequenceNumber).resolve_right fun h => hl' ⟨hin, h.1⟩
      obtain ⟨d, hd, -⟩ := hread.2
      obtain ⟨d', hd', -⟩ := hread'.2
      rw [hd, hd']
      exact ⟨d', rfl⟩
    · rw [if_pos hin, if_pos hin]
      exact ⟨c, rfl⟩
  | _ => exact Alike.handle he hk (by simp) (by simp) hm hm' hoff hs hc hl hl'

/-- Only the answers about clipboards tell the labels apart. -/
def SameButClipboards (i j : Platform × ServerEvent) : Prop := j.2 = i.2 ∧ ∃ k, j.1 = i.1.withClipboards k

/-- A step whose answers about clipboards are marshalled ones. -/
def AnswersMarshalled (_ : Server) (i : Platform × ServerEvent) (_ : Server) : Prop := i.1.Marshalled

/-- A step does not leak while sharing is off. -/
def Tight (s : Server) (i : Platform × ServerEvent) (t : Server) : Prop := s.SharingOff → ¬ Leaks i.1 s i.2 t

/-- Nothing is told of what a clipboard holds while sharing is off. -/
def HushedWhileOff (s : Server) (_ : Platform × ServerEvent) (t : Server) : Prop := s.SharingOff → s.Hushed t

instance (i : Platform × ServerEvent) : Decidable (Tight s i t) := inferInstanceAs (Decidable (_ → _))

instance : Decidable (s.Hushed t) :=
  inferInstanceAs (Decidable (s.calls <+: t.calls ∧ ∀ x ∈ callsSince s t, x.2.isSetClipboard = false))

instance (i : Platform × ServerEvent) : Decidable (HushedWhileOff s i t) := inferInstanceAs (Decidable (_ → _))

/-- As long as sharing is off, runs that only differ in what clipboards hold tell the
clients the same. -/
theorem runs_alike {run run' : List ((Platform × ServerEvent) × Server)} (hr : Trace Step s run)
    (hr' : Trace Step (s.withContents c) run') (hsame : List.Forall₂ SameButClipboards (run.map Prod.fst) (run'.map Prod.fst))
    (hs : s.Filled) (hc : (s.withContents c).Filled) (hm : EachStep AnswersMarshalled s run)
    (hm' : EachStep AnswersMarshalled (s.withContents c) run') (hoff : EachStep (fun s _ _ => s.SharingOff) s run)
    (ht : EachStep Tight s run) (ht' : EachStep Tight (s.withContents c) run') :
    run.map (·.2.calls) = run'.map (·.2.calls) := by
  induction run generalizing s c run' with
  | nil =>
    cases run' with
    | nil => rfl
    | cons x run' => cases hsame
  | cons x run ih =>
    cases run' with
    | nil => cases hsame
    | cons x' run' =>
      obtain ⟨⟨e, ev⟩, t⟩ := x
      obtain ⟨⟨e', ev'⟩, t'⟩ := x'
      obtain ⟨⟨hev, k, hk⟩, hrest⟩ := List.forall₂_cons.mp hsame
      obtain rfl : ev' = ev := hev
      obtain rfl : e' = e.withClipboards k := hk
      cases hr with
      | cons hstep hrun =>
        cases hr' with
        | cons hstep' hrun' =>
          obtain ⟨d, rfl⟩ := step_alike hm.1 hm'.1 hs hc hoff.1 hstep hstep' (ht.1 hoff.1) (ht'.1 hoff.1)
          have hgo := ih hrun hrun' hrest (step_filled hm.1 hs hstep) (step_filled hm'.1 hc hstep') hm.2 hm'.2 hoff.2 ht.2 ht'.2
          rw [List.map_cons, List.map_cons, hgo]
          rfl

theorem new_filled (e : Platform) (config : Config) (primaryClient : BaseClientProxy) :
    (new e config primaryClient).Filled := by
  have hinit : (initial config primaryClient).Filled := fun _ => List.cons_ne_nil _ _
  have hadd : (((initial config primaryClient).addClient e primaryClient).getD (initial config primaryClient)).Filled := by
    unfold addClient
    dsimp only
    split
    · exact hinit
    · exact hinit
  intro id
  have hset := congrFun (setConfig_settles (e := e)
    (((initial config primaryClient).addClient e primaryClient).getD (initial config primaryClient))).contents id
  exact fun h => hadd id (hset ▸ h)

/-- Along every run the clients are told nothing of clipboards while sharing is off if
and only if no step leaks, and then two ways to go on from any state of the run that
differ in what clipboards hold tell the clients the same until sharing is on again. -/
theorem clipboards_secret_iff (e : Platform) (config : Config) (primaryClient : BaseClientProxy)
    {tr : List ((Platform × ServerEvent) × Server)} (hr : Trace Step (new e config primaryClient) tr)
    (hm : EachStep AnswersMarshalled (new e config primaryClient) tr) :
    (EachStep Tight (new e config primaryClient) tr ↔ EachStep HushedWhileOff (new e config primaryClient) tr) ∧
      ∀ s ∈ new e config primaryClient :: tr.map Prod.snd, ∀ run run', Trace Step s run → Trace Step s run' →
        List.Forall₂ SameButClipboards (run.map Prod.fst) (run'.map Prod.fst) →
        EachStep AnswersMarshalled s run → EachStep AnswersMarshalled s run' →
        EachStep (fun s _ _ => s.SharingOff) s run → EachStep Tight s run → EachStep Tight s run' →
        run.map (·.2.calls) = run'.map (·.2.calls) := by
  have hstart := new_filled e config primaryClient
  have hrm := hr.restrict hm
  constructor
  · refine hrm.eachStep_iff Filled ?_ ?_ hstart
    · intro s i t hs h
      exact forall_congr' fun hoff => (step_hushed_iff h.2 hs hoff h.1).symm
    · exact fun s i t hs h _ => step_filled h.2 hs h.1
  · intro s hs run run' hrun hrun' hsame hmrun hmrun' hoff ht ht'
    have hfilled : s.Filled := by
      have hall : Always Filled tr := hr.always Filled (fun s i t hs hi h => step_filled hi hs h) hstart hm
      rcases List.mem_cons.mp hs with rfl | hs
      · exact hstart
      · obtain ⟨x, hx, rfl⟩ := List.mem_map.mp hs
        exact hall x hx
    exact runs_alike (c := s.contents) hrun hrun' hsame hfilled hfilled hmrun hmrun' hoff ht ht'

/-- Two screens, with sharing turned off. -/
def unsharedScreens : Config := (twoScreens.addOption [] kOptionClipboardSharing 0).getD .empty

private theorem still_marshalled : Platform.still.Marshalled := by
  have hempty : emptyClipboard = Clipboard.marshalled {} := by decide
  exact fun _ _ => ⟨{}, hempty⟩

/-- Sharing is turned off before anyone owns a clipboard but the primary screen. -/
theorem clipboards_secret_unowned : EachStep HushedWhileOff (new .still unsharedScreens ⟨0, ['a']⟩)
    (runTrace (serve 0) (new .still unsharedScreens ⟨0, ['a']⟩) [(.still, .adoptClient ⟨1, ['b']⟩),
      (.still, .clipboardGrabbed ⟨1, ['b']⟩ 0 0), (.still, .clipboardChanged ⟨1, ['b']⟩ 0 0)]) :=
  (clipboards_secret_iff .still unsharedScreens ⟨0, ['a']⟩ (trace_serve (by decide))
    (by exact ⟨still_marshalled, still_marshalled, still_marshalled, trivial⟩)).1.mp (by decide)

/-- A clipboard that holds two characters. -/
def hiClipboard : Clipboard := { data := fun f => if f = .text then some [104, 105] else none }

/-- A client grabs a clipboard, sharing is turned off, and then the client's data comes. -/
theorem clipboards_not_secret :
    ¬ ∀ (e : Platform) (config : Config) (primaryClient : BaseClientProxy) (tr : List ((Platform × ServerEvent) × Server)),
      Trace Step (new e config primaryClient) tr → EachStep AnswersMarshalled (new e config primaryClient) tr →
        EachStep HushedWhileOff (new e config primaryClient) tr := by
  intro h
  have hrun : EachStep HushedWhileOff (new .still twoScreens ⟨0, ['a']⟩)
      (runTrace (serve 0) (new .still twoScreens ⟨0, ['a']⟩) [(.still, .adoptClient ⟨1, ['b']⟩),
        (.still, .clipboardGrabbed ⟨1, ['b']⟩ 0 0), (.still, .reloadConfig unsharedScreens),
        (Platform.still.withClipboards fun _ _ => hiClipboard.marshalled, .clipboardChanged ⟨1, ['b']⟩ 0 0)]) :=
    h _ _ _ _ (trace_serve (by decide))
      (by exact ⟨still_marshalled, still_marshalled, still_marshalled, fun _ _ => ⟨hiClipboard, rfl⟩, trivial⟩)
  revert hrun
  decide

end Server
end Synergy
