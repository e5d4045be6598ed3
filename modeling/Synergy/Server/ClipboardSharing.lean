import Synergy.Clipboard.Clipboard
import Synergy.Server.Removal

/-! Which handlers tell a client what a clipboard holds. Before a switch nothing that
the clipboards depend on changes; the switch itself and an update by a client are the
two places that may send them. -/
namespace Synergy
open Synergy.Lib

def Call.isSetClipboard : Call → Bool
  | .setClipboard _ _ => true
  | _ => false

/-- Whether a call is about a clipboard in any way. -/
def Call.isClipboard : Call → Bool
  | .setClipboard _ _ => true
  | .grabClipboard _ => true
  | .setClipboardDirty _ _ => true
  | _ => false

/-- Whether a screen is told that the cursor comes or goes. -/
def Call.isCrossing : Call → Bool
  | .enter _ _ _ _ _ => true
  | .leave _ => true
  | _ => false

/-- The characters of a string that a marshalled clipboard is. -/
def Clipboard.marshalled (c : Clipboard) : Str := c.marshall.map fun b => Char.ofNat b.toNat

theorem Clipboard.marshalled_ne_nil (c : Clipboard) : c.marshalled ≠ [] := by
  have hcount : 4 ≤ c.marshall.length := by
    rw [marshall, List.length_append, length_writeUInt32]
    exact Nat.le_add_right 4 _
  intro h
  rw [List.map_eq_nil_iff.mp h] at hcount
  cases hcount

/-- What a screen answers is the marshalled form of some clipboard. -/
def Platform.Marshalled (e : Platform) : Prop := ∀ client id, ∃ c : Clipboard, e.clipboard client id = c.marshalled

namespace Server
variable {e : Platform} {s t u : Server}

/-- Sharing is off, by its switch or by its size. -/
def SharingOff (s : Server) : Prop := s.enableClipboard = false ∨ s.maximumClipboardSize = 0

instance : DecidablePred SharingOff := fun _ => inferInstanceAs (Decidable (_ ∨ _))

/-- The calls made between two states. -/
def callsSince (s t : Server) : List (BaseClientProxy × Call) := t.calls.drop s.calls.length

/-- No client has been told anything that is forgotten. -/
def Appends (s t : Server) : Prop := s.calls <+: t.calls

/-- What has been told since says nothing of what a clipboard holds. -/
def Hushed (s t : Server) : Prop := s.Appends t ∧ ∀ x ∈ callsSince s t, x.2.isSetClipboard = false

/-- What decides which clipboards are sent where. -/
def sharing (s : Server) :=
  (s.primaryClient, s.config, s.clients, s.active, s.clipboards, s.enableClipboard, s.maximumClipboardSize)

/-- Clients are told nothing of the clipboards and what decides it stays. -/
structure Steady (s t : Server) : Prop where
  sharing : t.sharing = s.sharing
  hushed : s.Hushed t

/-- What has been told since is all of other kinds. -/
def SaysNo (kind : Call → Bool) (s t : Server) : Prop := ∃ l, t.calls = s.calls ++ l ∧ ∀ x ∈ l, kind x.2 = false

/-- Nothing at all is told of the clipboards, nor of the cursor's coming and going. -/
structure Calm (s t : Server) : Prop where
  table : (t.sharing, t.clientSet, t.oldClients) = (s.sharing, s.clientSet, s.oldClients)
  clipboard : SaysNo Call.isClipboard s t
  crossing : SaysNo Call.isCrossing s t

namespace Appends

theorem refl (s : Server) : s.Appends s := List.prefix_rfl

theorem trans (h : s.Appends t) (k : t.Appends u) : s.Appends u := List.IsPrefix.trans h k

theorem of_calls {l : List (BaseClientProxy × Call)} (h : t.calls = s.calls ++ l) : s.Appends t := ⟨l, h.symm⟩

theorem callsSince_trans (h : s.Appends t) (k : t.Appends u) : callsSince s u = callsSince s t ++ callsSince t u := by
  obtain ⟨l, hl⟩ := h
  obtain ⟨l', hl'⟩ := k
  simp [callsSince, ← hl', ← hl]

end Appends

namespace Hushed

theorem of_calls {l : List (BaseClientProxy × Call)} (h : t.calls = s.calls ++ l)
    (hl : ∀ x ∈ l, x.2.isSetClipboard = false) : s.Hushed t := by
  refine ⟨.of_calls h, ?_⟩
  rw [callsSince, h, List.drop_left]
  exact hl

theorem of_eq (h : t.calls = s.calls) : s.Hushed t := .of_calls (l := []) (by rw [h, List.append_nil]) (by simp)

theorem refl (s : Server) : s.Hushed s := .of_eq rfl

theorem trans (h : s.Hushed t) (k : t.Hushed u) : s.Hushed u := by
  refine ⟨h.1.trans k.1, ?_⟩
  rw [h.1.callsSince_trans k.1]
  exact fun x hx => (List.mem_append.mp hx).elim (h.2 x) (k.2 x)

/-- What is silent as a whole is silent in its first part and in its second. -/
theorem parts (h : s.Hushed u) (hst : s.Appends t) (htu : t.Appends u) : s.Hushed t ∧ t.Hushed u := by
  obtain ⟨-, h⟩ := h
  rw [hst.callsSince_trans htu] at h
  exact ⟨⟨hst, fun x hx => h x (List.mem_append_left _ hx)⟩, htu, fun x hx => h x (List.mem_append_right _ hx)⟩

end Hushed

namespace Steady

theorem refl (s : Server) : s.Steady s := ⟨rfl, .refl s⟩

theorem trans (h : s.Steady t) (k : t.Steady u) : s.Steady u := ⟨k.sharing.trans h.sharing, h.hushed.trans k.hushed⟩

theorem of_still (h : t.sharing = s.sharing) (hcalls : t.calls = s.calls) : s.Steady t := ⟨h, .of_eq hcalls⟩

theorem ite {p : Prop} [Decidable p] (ht : s.Steady t) (hu : s.Steady u) : s.Steady (if p then t else u) := by
  split
  · exact ht
  · exact hu

theorem primaryClient (h : s.Steady t) : t.primaryClient = s.primaryClient := congrArg Prod.fst h.sharing

theorem active (h : s.Steady t) : t.active = s.active := congrArg (·.2.2.2.1) h.sharing

end Steady

namespace SaysNo
variable {kind : Call → Bool}

theorem of_eq (h : t.calls = s.calls) : SaysNo kind s t := ⟨[], by rw [h, List.append_nil], by simp⟩

theorem refl (s : Server) : SaysNo kind s s := .of_eq rfl

theorem trans (h : SaysNo kind s t) (k : SaysNo kind t u) : SaysNo kind s u := by
  obtain ⟨l, hcalls, hl⟩ := h
  obtain ⟨l', hcalls', hl'⟩ := k
  refine ⟨l ++ l', by rw [hcalls', hcalls, List.append_assoc], ?_⟩
  exact fun x hx => (List.mem_append.mp hx).elim (hl x) (hl' x)

theorem ite {p : Prop} [Decidable p] (ht : SaysNo kind s t) (hu : SaysNo kind s u) :
    SaysNo kind s (if p then t else u) := by
  split
  · exact ht
  · exact hu

theorem call (s : Server) (c : BaseClientProxy) {m : Call} (h : kind m = false) : SaysNo kind s (s.call c m) :=
  ⟨[(c, m)], rfl, by simpa using h⟩

theorem callEach (s : Server) {m : BaseClientProxy → Call} (h : ∀ c, kind (m c) = false) :
    SaysNo kind s (s.callEach m) := by
  refine ⟨_, rfl, fun x hx => ?_⟩
  obtain ⟨i, -, rfl⟩ := List.mem_map.mp hx
  exact h i.2

end SaysNo

namespace Calm

theorem of_told {l : List (BaseClientProxy × Call)}
    (h : (t.sharing, t.clientSet, t.oldClients) = (s.sharing, s.clientSet, s.oldClients)) (hcalls : t.calls = s.calls ++ l)
    (hl : ∀ x ∈ l, x.2.isClipboard = false ∧ x.2.isCrossing = false) : s.Calm t :=
  ⟨h, ⟨l, hcalls, fun x hx => (hl x hx).1⟩, l, hcalls, fun x hx => (hl x hx).2⟩

theorem of_still (h : (t.sharing, t.clientSet, t.oldClients) = (s.sharing, s.clientSet, s.oldClients))
    (hcalls : t.calls = s.calls) : s.Calm t :=
  ⟨h, .of_eq hcalls, .of_eq hcalls⟩

theorem refl (s : Server) : s.Calm s := .of_still rfl rfl

theorem trans (h : s.Calm t) (k : t.Calm u) : s.Calm u :=
  ⟨k.table.trans h.table, h.clipboard.trans k.clipboard, h.crossing.trans k.crossing⟩

theorem ite {p : Prop} [Decidable p] (ht : s.Calm t) (hu : s.Calm u) : s.Calm (if p then t else u) := by
  split
  · exact ht
  · exact hu

theorem sharing (h : s.Calm t) : t.sharing = s.sharing := congrArg Prod.fst h.table

theorem sameTable (h : s.Calm t) : SameTable s t := by
  obtain ⟨hprimary, hconfig, hclients, -, hclipboards, -, -⟩ := by simpa only [Server.sharing, Prod.mk.injEq] using h.sharing
  have hset : t.clientSet = s.clientSet := congrArg (·.2.1) h.table
  have hold : t.oldClients = s.oldClients := congrArg (·.2.2) h.table
  exact ⟨hprimary, ⟨_, hconfig⟩, hclients, hset, hold, fun id => .inl (congrArg (fun b => (b id).owner) hclipboards)⟩

theorem steady (h : s.Calm t) : s.Steady t := by
  obtain ⟨l, hcalls, hl⟩ := h.clipboard
  refine ⟨h.sharing, .of_calls hcalls fun x hx => ?_⟩
  have hx := hl x hx
  generalize x.2 = m at hx ⊢
  cases m with
  | setClipboard id clipboard => cases hx
  | _ => rfl

end Calm

theorem call_steady (s : Server) (c : BaseClientProxy) {m : Call} (h : m.isSetClipboard = false) : s.Steady (s.call c m) :=
  ⟨rfl, .of_calls rfl (by simpa using h)⟩

theorem call_calm (s : Server) (c : BaseClientProxy) {m : Call} (h : m.isClipboard = false ∧ m.isCrossing = false) :
    s.Calm (s.call c m) :=
  ⟨rfl, .call s c h.1, .call s c h.2⟩

theorem callEach_calm (s : Server) {m : BaseClientProxy → Call}
    (h : ∀ c, (m c).isClipboard = false ∧ (m c).isCrossing = false) : s.Calm (s.callEach m) :=
  ⟨rfl, .callEach s fun c => (h c).1, .callEach s fun c => (h c).2⟩

theorem stopSwitch_calm (s : Server) : s.Calm s.stopSwitch := by
  unfold stopSwitch
  split
  · exact .refl s
  · exact .of_still rfl rfl

theorem noSwitch_calm (s : Server) (x y : Int) : s.Calm (s.noSwitch e x y) := by
  obtain ⟨engaged, armed, h⟩ := s.armSwitchTwoTap_eq (e := e) x y
  rw [noSwitch, h]
  exact .of_still rfl rfl

theorem sendLocalFiles_calm (s : Server) (paths : List Str) : s.Calm (s.sendLocalFiles paths) := by
  refine .ite (.refl s) (.of_told rfl rfl ?_)
  intro x hx
  obtain ⟨i, -, rfl⟩ := List.mem_map.mp hx
  exact ⟨rfl, rfl⟩

theorem aimAndWait_calm (s : Server) (newScreen : BaseClientProxy) (dir : Direction) (x y : Int) :
    s.Calm (s.aimAndWait e newScreen dir x y).1 := by
  have haim : s.Calm (s.aimSwitch newScreen dir) := .ite (.of_still rfl rfl) (.refl s)
  have htap : ∀ s : Server, ∀ isNewDirection, s.Calm (s.testTwoTap e isNewDirection).1 := by
    intro s isNewDirection
    unfold testTwoTap
    split_ifs
    · exact .of_still rfl rfl
    · exact .refl s
    · exact .refl s
  have hwait : ∀ s : Server, ∀ isNewDirection allowSwitch preventSwitch,
      s.Calm (s.testWait isNewDirection allowSwitch preventSwitch x y).1 := by
    intro s isNewDirection allowSwitch preventSwitch
    unfold testWait
    split_ifs
    · exact .of_still rfl rfl
    · exact .refl s
    · exact .refl s
  exact (haim.trans (htap _ _)).trans (hwait _ _ _ _)

theorem isSwitchOkay_calm (s : Server) (newScreen : Option BaseClientProxy) (dir : Direction)
    (x y xActive yActive : Int) : s.Calm (s.isSwitchOkay e newScreen dir x y xActive yActive).1 := by
  have hrefuse : ∀ {r : Server × Bool} (refused : Bool), s.Calm r.1 → s.Calm (refuseIf refused r).1 := by
    intro r refused h
    unfold refuseIf
    split
    · exact h.trans (stopSwitch_calm _)
    · exact h
  unfold isSwitchOkay
  cases newScreen with
  | none => exact stopSwitch_calm s
  | some newScreen => exact hrefuse _ (hrefuse _ (hrefuse _ (aimAndWait_calm s newScreen dir x y)))

theorem recordMotion_calm (s : Server) (x y dx dy : Int) : s.Calm (s.recordMotion x y dx dy) := .of_still rfl rfl

theorem leaveBorder_calm (s : Server) : s.Calm (s.leaveBorder e) := .ite (noSwitch_calm s _ _) (.refl s)

theorem clampMove_calm (s : Server) (xOld yOld dx dy : Int) : s.Calm (s.clampMove e xOld yOld dx dy) := by
  have hclamp : ∀ x y, s.Calm { s with x := x, y := y } := fun x y => .of_still rfl rfl
  unfold clampMove
  exact (hclamp _ _).trans (.ite (call_calm _ _ ⟨rfl, rfl⟩) (.refl _))

theorem stopRelativeMoves_calm (s : Server) : s.Calm (s.stopRelativeMoves e) :=
  .ite (.of_told rfl rfl (by simp [Call.isClipboard, Call.isCrossing])) (.refl s)

theorem takeCursorPos_calm (s : Server) (client : BaseClientProxy) : s.Calm (s.takeCursorPos e client) := by
  have hjump : s.Calm { s with jumpCursorPos := Function.update s.jumpCursorPos client (e.cursorPos client) } :=
    .of_still rfl rfl
  unfold takeCursorPos
  exact hjump.trans (.ite (.of_still rfl rfl) (.refl _))

theorem relayKey_calm (s : Server) (screens : Option Str) {m : Call}
    (h : m.isClipboard = false ∧ m.isCrossing = false) : s.Calm (s.relayKey screens m) := by
  refine .ite (call_calm s _ h) (.of_told rfl rfl ?_)
  intro x hx
  obtain ⟨i, -, rfl⟩ := List.mem_map.mp hx
  exact h

end Server
end Synergy
