import Synergy.Server.ClipboardSharing
import Synergy.Server.Step

/-! The two places that send clipboards, while sharing is off: an update by a client
and the switch away from a screen. -/
namespace Synergy
open Synergy.Lib

/-- What is kept of each clipboard: the object and its marshalled form when it was last sent. -/
abbrev Contents := ClipboardID → Str × Str

namespace Server
variable {e : Platform} {s t u : Server}

@[simps] def withContents (s : Server) (c : Contents) : Server :=
  { s with clipboards := fun id => { s.clipboards id with clipboard := (c id).1, data := (c id).2 } }

def contents (s : Server) : Contents := fun id => ((s.clipboards id).clipboard, (s.clipboards id).data)

@[simp] theorem withContents_contents (s : Server) : s.withContents s.contents = s := rfl

@[simp] theorem withContents_withContents (s : Server) (c d : Contents) :
    (s.withContents c).withContents d = s.withContents d := rfl

@[simp] theorem contents_withContents (s : Server) (c : Contents) : (s.withContents c).contents = c := rfl

/-- No clipboard is kept without at least the count of its formats. -/
def Filled (s : Server) : Prop := ∀ id, (s.contents id).1 ≠ []

/-- An update passes the tests on its number, its sender, its size and its news. -/
def TakesUp (e : Platform) (s : Server) (sender : BaseClientProxy) (id : ClipboardID) (seqNum : UInt32) : Prop :=
  ¬ seqNum < (s.clipboards id).seqNum ∧ s.clients.get? (s.clipboards id).owner = some sender ∧
    ¬ exceedsSizeLimit (e.clipboard sender id).length s.maximumClipboardSize = true ∧
    e.clipboard sender id ≠ (s.clipboards id).data

instance (sender : BaseClientProxy) (id : ClipboardID) (seqNum : UInt32) : Decidable (s.TakesUp e sender id seqNum) :=
  inferInstanceAs (Decidable (_ ∧ _ ∧ _ ∧ _))

/-- A clipboard that the primary screen owns has changed there. -/
def PrimaryChanged (e : Platform) (s : Server) (id : ClipboardID) : Prop :=
  (s.clipboards id).owner = s.getName s.primaryClient ∧ s.TakesUp e s.primaryClient id (s.clipboards id).seqNum

instance (id : ClipboardID) : Decidable (s.PrimaryChanged e id) := inferInstanceAs (Decidable (_ ∧ _))

/-- Clipboards have been read again, with nothing new for the clients. -/
def Rereads (e : Platform) (s t : Server) : Prop :=
  ∃ c, t = s.withContents c ∧ ∀ id, (c id).2 = (s.contents id).2 ∧
    ((c id).1 = (s.contents id).1 ∨ ∃ client, (c id).1 = e.clipboard client id)

namespace Rereads

theorem refl (s : Server) : s.Rereads e s := ⟨s.contents, rfl, fun _ => ⟨rfl, .inl rfl⟩⟩

theorem trans (h : s.Rereads e t) (k : t.Rereads e u) : s.Rereads e u := by
  obtain ⟨c, rfl, hc⟩ := h
  obtain ⟨d, rfl, hd⟩ := k
  refine ⟨d, rfl, fun id => ⟨(hd id).1.trans (hc id).1, ?_⟩⟩
  rcases (hd id).2 with h | h
  · exact (hc id).2.imp h.trans fun ⟨client, hclient⟩ => ⟨client, h.trans hclient⟩
  · exact .inr h

theorem hushed (h : s.Rereads e t) : s.Hushed t := by
  obtain ⟨c, rfl, -⟩ := h
  exact .of_eq rfl

/-- What is not kept anew is still kept. -/
theorem filled (he : e.Marshalled) (hs : s.Filled) (h : s.Rereads e t) : t.Filled := by
  obtain ⟨c, rfl, hc⟩ := h
  intro id
  rcases (hc id).2 with hkept | ⟨client, hread⟩
  · exact hkept.symm ▸ hs id
  · obtain ⟨d, hd⟩ := he client id
    exact (hread.trans hd).symm ▸ d.marshalled_ne_nil

theorem takesUp_iff (h : s.Rereads e t) (sender : BaseClientProxy) (id : ClipboardID) (seqNum : UInt32) :
    t.TakesUp e sender id seqNum ↔ s.TakesUp e sender id seqNum := by
  obtain ⟨c, rfl, hc⟩ := h
  have hdata : (c id).2 = (s.clipboards id).data := (hc id).1
  change _ ∧ _ ∧ _ ∧ e.clipboard sender id ≠ (c id).2 ↔ _
  rw [hdata]
  exact Iff.rfl

theorem primaryChanged_iff (h : s.Rereads e t) (id : ClipboardID) : t.PrimaryChanged e id ↔ s.PrimaryChanged e id := by
  have htakes := h.takesUp_iff s.primaryClient id (s.clipboards id).seqNum
  obtain ⟨c, rfl, -⟩ := h
  exact and_congr_right fun _ => htakes

end Rereads

private theorem withContents_update (s : Server) (id : ClipboardID) (x y : Str) :
    { s with clipboards := Function.update s.clipboards id { s.clipboards id with clipboard := x, data := y } } =
      s.withContents (Function.update s.contents id (x, y)) := by
  unfold withContents
  congr 1
  funext j
  by_cases hj : j = id
  · subst hj
    simp
  · simp [Function.update_of_ne hj, contents]

/-- An update is taken up or only read. -/
theorem onClipboardChanged_cases (s : Server) (sender : BaseClientProxy) (id : ClipboardID) (seqNum : UInt32) :
    ¬ s.TakesUp e sender id seqNum ∧ s.Rereads e (s.onClipboardChanged e sender id seqNum) ∨
      s.TakesUp e sender id seqNum ∧ s.onClipboardChanged e sender id seqNum =
        ((s.withContents (Function.update s.contents id (e.clipboard sender id, e.clipboard sender id))).callEach
          fun client => .setClipboardDirty id (client ≠ sender)).call s.active (.setClipboard id (e.clipboard sender id)) := by
  have hread : s.Rereads e { s with
      clipboards := Function.update s.clipboards id { s.clipboards id with clipboard := e.clipboard sender id } } := by
    refine ⟨_, withContents_update s id (e.clipboard sender id) (s.clipboards id).data, fun j => ?_⟩
    by_cases hj : j = id
    · subst hj
      rw [Function.update_self]
      exact ⟨rfl, .inr ⟨sender, rfl⟩⟩
    · rw [Function.update_of_ne hj]
      exact ⟨rfl, .inl rfl⟩
  unfold onClipboardChanged
  dsimp only
  by_cases hseq : seqNum < (s.clipboards id).seqNum
  · rw [if_pos hseq]
    exact .inl ⟨fun h => h.1 hseq, .refl s⟩
  rw [if_neg hseq]
  by_cases howner : s.clients.get? (s.clipboards id).owner = some sender
  swap
  · rw [if_pos howner]
    exact .inl ⟨fun h => howner h.2.1, .refl s⟩
  rw [if_neg (not_not.mpr howner)]
  by_cases hsize : exceedsSizeLimit (e.clipboard sender id).length s.maximumClipboardSize = true
  · rw [if_pos hsize]
    exact .inl ⟨fun h => h.2.2.1 hsize, hread⟩
  rw [if_neg hsize]
  by_cases hdata : e.clipboard sender id = (s.clipboards id).data
  · rw [if_pos hdata]
    exact .inl ⟨fun h => h.2.2.2 hdata, hread⟩
  rw [if_neg hdata, Function.update_idem]
  refine .inr ⟨⟨hseq, howner, hsize, hdata⟩, ?_⟩
  rw [← withContents_update]

theorem onClipboardChanged_appends (s : Server) (sender : BaseClientProxy) (id : ClipboardID) (seqNum : UInt32) :
    s.Appends (s.onClipboardChanged e sender id seqNum) := by
  rcases onClipboardChanged_cases (e := e) s sender id seqNum with ⟨-, h⟩ | ⟨-, h⟩
  · exact h.hushed.1
  · rw [h]
    exact .of_calls (List.append_assoc _ _ _)

theorem onClipboardChanged_hushed_iff (s : Server) (sender : BaseClientProxy) (id : ClipboardID) (seqNum : UInt32) :
    s.Hushed (s.onClipboardChanged e sender id seqNum) ↔ ¬ s.TakesUp e sender id seqNum := by
  rcases onClipboardChanged_cases (e := e) s sender id seqNum with ⟨hnot, h⟩ | ⟨htakes, h⟩
  · exact iff_of_true h.hushed hnot
  · refine iff_of_false (fun hh => ?_) (not_not.mpr htakes)
    have hlast : (s.active, Call.setClipboard id (e.clipboard sender id)) ∈
        callsSince s (s.onClipboardChanged e sender id seqNum) := by
      rw [h]
      simp [callsSince, call, callEach, withContents]
    exact Bool.false_ne_true (hh.2 _ hlast).symm

theorem onClipboardChanged_filled (he : e.Marshalled) (hs : s.Filled) (sender : BaseClientProxy) (id : ClipboardID)
    (seqNum : UInt32) : (s.onClipboardChanged e sender id seqNum).Filled := by
  rcases onClipboardChanged_cases (e := e) s sender id seqNum with ⟨-, h⟩ | ⟨-, h⟩
  · exact h.filled he hs
  · rw [h]
    intro j
    change (Function.update s.contents id (e.clipboard sender id, e.clipboard sender id) j).1 ≠ []
    by_cases hj : j = id
    · subst hj
      obtain ⟨d, hd⟩ := he sender j
      rw [Function.update_self, hd]
      exact d.marshalled_ne_nil
    · rw [Function.update_of_ne hj]
      exact hs j

/-- One clipboard of the primary screen on the way out of it. -/
def updateClipboard (e : Platform) (s : Server) (id : ClipboardID) : Server :=
  if (s.clipboards id).owner = s.getName s.primaryClient then
    s.onClipboardChanged e s.primaryClient id (s.clipboards id).seqNum
  else s

theorem updateClipboards_eq (s : Server) : s.updateClipboards e = clipboardIds.foldl (updateClipboard e) s := rfl

private theorem updateClipboard_cases (s : Server) (id : ClipboardID) :
    ¬ s.PrimaryChanged e id ∧ s.Rereads e (s.updateClipboard e id) ∨
      s.PrimaryChanged e id ∧ s.Appends (s.updateClipboard e id) ∧ ¬ s.Hushed (s.updateClipboard e id) := by
  unfold updateClipboard
  split
  · rename_i howner
    rcases onClipboardChanged_cases (e := e) s s.primaryClient id (s.clipboards id).seqNum with ⟨hnot, h⟩ | ⟨htakes, -⟩
    · exact .inl ⟨fun hp => hnot hp.2, h⟩
    · refine .inr ⟨⟨howner, htakes⟩, onClipboardChanged_appends _ _ _ _, ?_⟩
      rw [onClipboardChanged_hushed_iff]
      exact not_not.mpr htakes
  · rename_i howner
    exact .inl ⟨fun hp => howner hp.1, .refl s⟩

/-- The clipboards of the primary screen are only read, or one of them is sent. -/
private theorem foldl_updateClipboard_cases (ids : List ClipboardID) (s : Server) :
    (∀ id ∈ ids, ¬ s.PrimaryChanged e id) ∧ s.Rereads e (ids.foldl (updateClipboard e) s) ∨
      (∃ id ∈ ids, s.PrimaryChanged e id) ∧ s.Appends (ids.foldl (updateClipboard e) s) ∧
        ¬ s.Hushed (ids.foldl (updateClipboard e) s) := by
  induction ids generalizing s with
  | nil => exact .inl ⟨by simp, .refl s⟩
  | cons id ids ih =>
    rw [List.foldl_cons]
    have hrest : (s.updateClipboard e id).Appends (ids.foldl (updateClipboard e) (s.updateClipboard e id)) := by
      rcases ih (s.updateClipboard e id) with ⟨-, h⟩ | ⟨-, h, -⟩
      · exact h.hushed.1
      · exact h
    rcases updateClipboard_cases (e := e) s id with ⟨hnot, hread⟩ | ⟨hchanged, happ, hloud⟩
    · rcases ih (s.updateClipboard e id) with ⟨hall, h⟩ | ⟨⟨j, hj, hch⟩, -, hloud⟩
      · refine .inl ⟨?_, hread.trans h⟩
        rintro j (_ | ⟨_, hj⟩)
        · exact hnot
        · exact fun hp => hall j hj ((hread.primaryChanged_iff j).mpr hp)
      · refine .inr ⟨⟨j, List.mem_cons_of_mem _ hj, (hread.primaryChanged_iff j).mp hch⟩, hread.hushed.1.trans hrest, ?_⟩
        exact fun h => hloud (h.parts hread.hushed.1 hrest).2
    · exact .inr ⟨⟨id, List.mem_cons_self, hchanged⟩, happ.trans hrest, fun h => hloud (h.parts happ hrest).1⟩

/-- Some clipboard that the primary screen owns has changed there. -/
def AnyPrimaryChanged (e : Platform) (s : Server) : Prop := ∃ id ∈ clipboardIds, s.PrimaryChanged e id

instance : Decidable (s.AnyPrimaryChanged e) := inferInstanceAs (Decidable (∃ id ∈ clipboardIds, _))

theorem updateClipboards_cases (s : Server) :
    ¬ s.AnyPrimaryChanged e ∧ s.Rereads e (s.updateClipboards e) ∨
      s.AnyPrimaryChanged e ∧ s.Appends (s.updateClipboards e) ∧ ¬ s.Hushed (s.updateClipboards e) := by
  rw [updateClipboards_eq]
  rcases foldl_updateClipboard_cases (e := e) clipboardIds s with ⟨hall, h⟩ | h
  · exact .inl ⟨fun ⟨id, hid, hp⟩ => hall id hid hp, h⟩
  · exact .inr h

end Server
end Synergy

/-! What an event comes to as far as the clipboards are concerned, and the switch
between screens while they are not shared. -/
namespace Synergy
open Synergy.Lib

namespace Server
variable {e : Platform} {s t u : Server}

theorem Steady.contents (h : s.Steady t) : t.contents = s.contents := by
  have hclipboards : t.clipboards = s.clipboards := congrArg (·.2.2.2.2.1) h.sharing
  unfold Server.contents
  rw [hclipboards]

theorem Steady.filled (h : s.Steady t) (hs : s.Filled) : t.Filled := by
  unfold Filled
  rw [h.contents]
  exact hs

theorem Steady.sharingOff_iff (h : s.Steady t) : t.SharingOff ↔ s.SharingOff := by
  have henable : t.enableClipboard = s.enableClipboard := congrArg (·.2.2.2.2.2.1) h.sharing
  have hsize : t.maximumClipboardSize = s.maximumClipboardSize := congrArg (·.2.2.2.2.2.2) h.sharing
  rw [SharingOff, SharingOff, henable, hsize]

theorem Steady.anyPrimaryChanged_iff (h : s.Steady t) : t.AnyPrimaryChanged e ↔ s.AnyPrimaryChanged e := by
  obtain ⟨hprimary, hconfig, hclients, -, hclipboards, -, hsize⟩ := by simpa only [Server.sharing, Prod.mk.injEq] using h.sharing
  unfold AnyPrimaryChanged PrimaryChanged TakesUp getName
  rw [hprimary, hconfig, hclients, hclipboards, hsize]

/-- With a size of zero nothing is small enough to be sent. -/
theorem sendClipboards_eq (h : s.maximumClipboardSize = 0) (hs : s.Filled) : s.sendClipboards = s := by
  have hskip : ∀ ids : List ClipboardID, ids.foldl (fun s id =>
      if s.maximumClipboardSize * 1024 < (s.clipboards id).clipboard.length then s
      else s.call s.active (.setClipboard id (s.clipboards id).clipboard)) s = s := by
    intro ids
    induction ids with
    | nil => rfl
    | cons id ids ih =>
      have hlen : s.maximumClipboardSize * 1024 < (s.clipboards id).clipboard.length := by
        rw [h]
        exact List.length_pos_iff.mpr (hs id)
      rw [List.foldl_cons, if_pos hlen, ih]
  exact hskip clipboardIds

theorem sendClipboards_calls (s : Server) : ∃ l, s.sendClipboards = { s with calls := s.calls ++ l } := by
  have hsend : ∀ (ids : List ClipboardID) (s : Server), ∃ l, ids.foldl (fun s id =>
      if s.maximumClipboardSize * 1024 < (s.clipboards id).clipboard.length then s
      else s.call s.active (.setClipboard id (s.clipboards id).clipboard)) s = { s with calls := s.calls ++ l } := by
    intro ids
    induction ids with
    | nil => exact fun s => ⟨[], by simp⟩
    | cons id ids ih =>
      intro s
      rw [List.foldl_cons]
      split
      · exact ih s
      · obtain ⟨l, hl⟩ := ih (s.call s.active (.setClipboard id (s.clipboards id).clipboard))
        exact ⟨(s.active, .setClipboard id (s.clipboards id).clipboard) :: l, by rw [hl]; simp [call]⟩
  exact hsend clipboardIds s

theorem cutOver_calls (s : Server) (dst : BaseClientProxy) (x y : Int) (forScreensaver : Bool) :
    ∃ l, s.cutOver e dst x y forScreensaver = { s with active := dst, seqNum := s.seqNum + 1, calls := s.calls ++ l } := by
  unfold cutOver
  dsimp only
  split
  · obtain ⟨l, hl⟩ := sendClipboards_calls
      ({ s with active := dst, seqNum := s.seqNum + 1 }.call dst (.enter x y (s.seqNum + 1) e.toggleMask forScreensaver))
    exact ⟨(dst, .enter x y (s.seqNum + 1) e.toggleMask forScreensaver) :: l, by rw [hl]; simp [call]⟩
  · exact ⟨[(dst, .enter x y (s.seqNum + 1) e.toggleMask forScreensaver)], rfl⟩

/-- The other screen is entered, and that is all while sharing is off. -/
theorem cutOver_eq (h : s.SharingOff) (hs : s.Filled) (dst : BaseClientProxy) (x y : Int) (forScreensaver : Bool) :
    s.cutOver e dst x y forScreensaver =
      { s with active := dst, seqNum := s.seqNum + 1 }.call dst (.enter x y (s.seqNum + 1) e.toggleMask forScreensaver) := by
  unfold cutOver
  dsimp only
  rcases h with h | h
  · rw [if_neg (by simp [call, h])]
  · rw [sendClipboards_eq (by exact h) (by exact hs), ite_self]

/-- No switch is pending and the cursor is where a switch takes it. -/
def moved (s : Server) (x y : Int) : Server :=
  { s.stopSwitch with x := x, y := y, xDelta := 0, yDelta := 0, xDelta2 := 0, yDelta2 := 0 }

/-- The screen that is left has been told so and the dragged files are offered. -/
def left (e : Platform) (s : Server) (x y : Int) : Server :=
  let t := (s.moved x y).call s.active (.leave true)
  if s.active = s.primaryClient then t.sendLocalFiles e.draggingPaths else t

theorem moved_calm (s : Server) (x y : Int) : s.Calm (s.moved x y) := by
  refine (stopSwitch_calm s).trans ?_
  exact .of_still rfl rfl

theorem moved_steady (s : Server) (x y : Int) : s.Steady (s.moved x y) := (moved_calm s x y).steady

theorem left_steady (s : Server) (x y : Int) : s.Steady (s.left e x y) := by
  unfold left
  refine (moved_steady s x y).trans ?_
  exact .ite ((call_steady _ _ rfl).trans (sendLocalFiles_calm _ _).steady) (call_steady _ _ rfl)

/-- A switch warps the cursor, or leaves the screen and enters another one, or the
screen cannot be left. -/
theorem switchScreen_eq (s : Server) (dst : BaseClientProxy) (x y : Int) (forScreensaver : Bool) :
    s.switchScreen e dst x y forScreensaver =
      if s.active = dst then (s.moved x y).call dst (.mouseMove x y)
      else if s.leaves e s.active = true then
        (if s.active = s.primaryClient ∧ s.enableClipboard = true then (s.left e x y).updateClipboards e
          else s.left e x y).cutOver e dst x y forScreensaver
      else (s.moved x y).call s.active (.leave false) := by
  have hactive : (s.moved x y).active = s.active := (moved_steady s x y).active
  have hprimary : (s.moved x y).primaryClient = s.primaryClient := (moved_steady s x y).primaryClient
  have hleaves : (s.moved x y).leaves e s.active = s.leaves e s.active := by rw [leaves, leaves, hprimary]
  have henable : (s.left e x y).enableClipboard = s.enableClipboard :=
    congrArg (·.2.2.2.2.2.1) (left_steady (e := e) s x y).sharing
  have hstart : s.switchScreen e dst x y forScreensaver =
      if (s.moved x y).active = dst then (s.moved x y).call dst (.mouseMove x y)
      else
        let left := (s.moved x y).leaves e (s.moved x y).active
        let t := (s.moved x y).call (s.moved x y).active (.leave left)
        if !left then t
        else
          let fromPrimary := (s.moved x y).active = (s.moved x y).primaryClient
          let t := if fromPrimary then t.sendLocalFiles e.draggingPaths else t
          (if fromPrimary ∧ t.enableClipboard then t.updateClipboards e else t).cutOver e dst x y forScreensaver := rfl
  rw [hstart, hactive, hprimary, hleaves]
  cases hl : s.leaves e s.active with
  | false => rfl
  | true =>
    rw [← henable]
    rfl

/-- A switch stays on its screen, or it leaves it and enters another one. -/
theorem switchScreen_cases (s : Server) (dst : BaseClientProxy) (x y : Int) (forScreensaver : Bool) :
    s.Steady (s.switchScreen e dst x y forScreensaver) ∨
      s.active ≠ dst ∧ s.switchScreen e dst x y forScreensaver =
        (if s.active = s.primaryClient ∧ s.enableClipboard = true then (s.left e x y).updateClipboards e
          else s.left e x y).cutOver e dst x y forScreensaver := by
  rw [switchScreen_eq]
  by_cases hdst : s.active = dst
  · rw [if_pos hdst]
    exact .inl ((moved_steady s x y).trans (call_steady _ _ rfl))
  rw [if_neg hdst]
  by_cases hleaves : s.leaves e s.active = true
  · rw [if_pos hleaves]
    exact .inr ⟨hdst, rfl⟩
  · rw [if_neg hleaves]
    exact .inl ((moved_steady s x y).trans (call_steady _ _ rfl))

/-- The cursor leaves the primary screen although a clipboard has changed there, and
only the size keeps it from being shared. -/
def LeavesChanged (e : Platform) (s t : Server) : Prop :=
  s.active = s.primaryClient ∧ t.active ≠ s.primaryClient ∧ s.enableClipboard = true ∧ s.AnyPrimaryChanged e

instance : Decidable (LeavesChanged e s t) := inferInstanceAs (Decidable (_ ∧ _ ∧ _ ∧ _))

theorem cutOver_hushed (h : s.SharingOff) (hs : s.Filled) (dst : BaseClientProxy) (x y : Int) (forScreensaver : Bool) :
    s.Hushed (s.cutOver e dst x y forScreensaver) := by
  rw [cutOver_eq h hs]
  exact .of_calls rfl (by simp [Call.isSetClipboard])

/-- A switch while sharing is off tells of a clipboard if and only if one has changed
on the primary screen that it leaves. -/
theorem switchScreen_hushed_iff (he : e.Marshalled) (hoff : s.SharingOff) (hs : s.Filled) (dst : BaseClientProxy)
    (x y : Int) (forScreensaver : Bool) : s.Appends (s.switchScreen e dst x y forScreensaver) ∧
      (s.Hushed (s.switchScreen e dst x y forScreensaver) ↔
        ¬ LeavesChanged e s (s.switchScreen e dst x y forScreensaver)) := by
  rcases switchScreen_cases (e := e) s dst x y forScreensaver with h | ⟨hne, h⟩
  · exact ⟨h.hushed.1, iff_of_true h.hushed fun hl => hl.2.1 (h.active.trans hl.1)⟩
  have hv := left_steady (e := e) s x y
  have hvoff := hv.sharingOff_iff.mpr hoff
  by_cases hup : s.active = s.primaryClient ∧ s.enableClipboard = true
  swap
  · rw [if_neg hup] at h
    have hcut := h ▸ hv.hushed.trans (cutOver_hushed hvoff (hv.filled hs) dst x y forScreensaver)
    exact ⟨hcut.1, iff_of_true hcut fun hl => hup ⟨hl.1, hl.2.2.1⟩⟩
  rw [if_pos hup] at h
  rcases updateClipboards_cases (e := e) (s.left e x y) with ⟨hnot, hread⟩ | ⟨hany, happ, hloud⟩
  · have hoff' : ((s.left e x y).updateClipboards e).SharingOff := by
      obtain ⟨c, hc, -⟩ := hread
      rw [hc]
      exact hvoff
    have hcut := h ▸ (hv.hushed.trans hread.hushed).trans
      (cutOver_hushed hoff' (hread.filled he (hv.filled hs)) dst x y forScreensaver)
    exact ⟨hcut.1, iff_of_true hcut fun hl => hnot (hv.anyPrimaryChanged_iff.mpr hl.2.2.2)⟩
  · obtain ⟨l, hl⟩ := cutOver_calls (e := e) ((s.left e x y).updateClipboards e) dst x y forScreensaver
    have hend : ((s.left e x y).updateClipboards e).Appends (s.switchScreen e dst x y forScreensaver) := by
      rw [h, hl]
      exact .of_calls rfl
    have hactive : (s.switchScreen e dst x y forScreensaver).active = dst := by rw [h, hl]
    refine ⟨hv.hushed.1.trans (happ.trans hend), iff_of_false (fun hh => ?_) (not_not.mpr ?_)⟩
    · exact hloud ((hh.parts hv.hushed.1 (happ.trans hend)).2.parts happ hend).1
    · exact ⟨hup.1, fun hd => hne (hup.1.trans (hactive ▸ hd).symm), hup.2, hv.anyPrimaryChanged_iff.mp hany⟩

theorem updateClipboards_filled (he : e.Marshalled) (hs : s.Filled) : (s.updateClipboards e).Filled := by
  have hone : ∀ (s : Server) id, s.Filled → (s.updateClipboard e id).Filled := fun s id hs =>
    iteInduction (fun _ => onClipboardChanged_filled he hs _ _ _) fun _ => hs
  have hall : ∀ (ids : List ClipboardID) (s : Server), s.Filled → (ids.foldl (updateClipboard e) s).Filled := by
    intro ids
    induction ids with
    | nil => exact fun _ => id
    | cons id ids ih => exact fun s hs => ih _ (hone s id hs)
  exact hall clipboardIds s hs

theorem switchScreen_filled (he : e.Marshalled) (hs : s.Filled) (dst : BaseClientProxy) (x y : Int)
    (forScreensaver : Bool) : (s.switchScreen e dst x y forScreensaver).Filled := by
  rcases switchScreen_cases (e := e) s dst x y forScreensaver with h | ⟨-, h⟩
  · exact h.filled hs
  · have hv := (left_steady (e := e) s x y).filled hs
    obtain ⟨l, hl⟩ := cutOver_calls (e := e) (if s.active = s.primaryClient ∧ s.enableClipboard = true then
      (s.left e x y).updateClipboards e else s.left e x y) dst x y forScreensaver
    rw [h, hl]
    refine iteInduction (motive := Filled) (fun _ => ?_) fun _ => ?_
    · exact updateClipboards_filled he hv
    · exact hv

end Server
end Synergy
