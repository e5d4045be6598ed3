import Mathlib.Algebra.Group.Nat.Defs
import Mathlib.Algebra.Ring.Int.Defs
import Mathlib.Order.Bounds.Basic
import Mathlib.Order.MinMax
import Synergy.Lib.Trace

/-! The shape of a screen that is fed through libei,
    against the smallest rectangle around the regions of its devices. -/
namespace Synergy
open Lib

/-- A fold finds the least of some elements. -/
theorem isLeast_foldl_min {α : Type*} [LinearOrder α] (l : List α) (a : α) :
    IsLeast {b | b = a ∨ b ∈ l} (l.foldl (fun least b => min b least) a) := by
  induction l generalizing a with
  | nil => exact ⟨.inl rfl, fun b hb => (hb.resolve_right List.not_mem_nil).ge⟩
  | cons c l ih =>
    obtain ⟨hmem, hle⟩ := ih (min c a)
    have hc := hle (.inl rfl)
    refine ⟨?_, ?_⟩
    · rcases hmem with heq | hmem
      · rw [List.foldl_cons, heq]
        rcases min_choice c a with hmin | hmin <;> rw [hmin]
        · exact .inr List.mem_cons_self
        · exact .inl rfl
      · exact .inr (List.mem_cons_of_mem _ hmem)
    · rintro b (rfl | hb)
      · exact hc.trans (min_le_right _ _)
      · rcases List.mem_cons.mp hb with rfl | hb
        · exact hc.trans (min_le_left _ _)
        · exact hle (.inr hb)

theorem isGreatest_foldl_max {α : Type*} [LinearOrder α] (l : List α) (a : α) :
    IsGreatest {b | b = a ∨ b ∈ l} (l.foldl (fun greatest b => max b greatest) a) :=
  @isLeast_foldl_min αᵒᵈ _ l a

/-- A rectangle of pixels. -/
structure Rect where
  x : Int
  y : Int
  w : Int
  h : Int
  deriving DecidableEq, Repr

namespace Rect

/-- A rectangle lies in another one. -/
structure Within (r s : Rect) : Prop where
  left : s.x ≤ r.x
  right : r.x + r.w ≤ s.x + s.w
  top : s.y ≤ r.y
  bottom : r.y + r.h ≤ s.y + s.h

/-- The smallest rectangle around others. -/
structure Smallest (box : Rect) (rects : List Rect) : Prop where
  contains : ∀ r ∈ rects, r.Within box
  least : ∀ box' : Rect, (∀ r ∈ rects, r.Within box') → box.Within box'

def Contains (r : Rect) (x y : Int) : Prop := r.x ≤ x ∧ x < r.x + r.w ∧ r.y ≤ y ∧ y < r.y + r.h

end Rect

/-- A region of a device, with 31 bits for its edges. -/
structure EiRegion where
  x : Nat
  y : Nat
  width : Nat
  height : Nat
  width_pos : 0 < width
  height_pos : 0 < height
  right_lt : x + width < 2 ^ 31
  bottom_lt : y + height < 2 ^ 31

def EiRegion.rect (r : EiRegion) : Rect := ⟨r.x, r.y, r.width, r.height⟩

/-- The devices are numbered. -/
abbrev EiDevice := Nat

/-- What a device has. -/
structure EiCapabilities where
  pointer : Bool
  pointerAbsolute : Bool
  button : Bool
  scroll : Bool
  keyboard : Bool

/-- What libei tells of the devices. -/
structure Ei where
  regions : EiDevice → List EiRegion
  capabilities : EiDevice → EiCapabilities

/-- The members of a screen that the devices change; the coordinates are of 32 bits, those of the cursor signed. -/
structure EiScreen where
  eiPointer : Option EiDevice := none
  eiKeyboard : Option EiDevice := none
  eiAbs : Option EiDevice := none
  eiDevices : List EiDevice := []
  x : Nat := 0
  y : Nat := 0
  w : Nat := 1
  h : Nat := 1
  cursorX : Int := 0
  cursorY : Int := 0

/-- A number of 32 bits, as a signed one. -/
def signed32 (n : Nat) : Int := if n < 2 ^ 31 then n else n - 2 ^ 32

def uint32Max : Nat := 2 ^ 32 - 1

/-- The calls that change the devices. -/
inductive DeviceCall
  | addDevice (device : EiDevice)
  | removeDevice (device : EiDevice)
  deriving DecidableEq, Repr

namespace EiScreen
variable (ei : Ei)

def addRegion (s : EiScreen) (r : EiRegion) : EiScreen :=
  { s with
    x := min r.x s.x
    y := min r.y s.y
    w := max ((r.x + r.width) % 2 ^ 32) s.w
    h := max ((r.y + r.height) % 2 ^ 32) s.h }

def updateShape (s : EiScreen) : EiScreen :=
  let s := s.eiDevices.foldl (fun s device => (ei.regions device).foldl addRegion s)
    { s with x := uint32Max, y := uint32Max, w := 1, h := 1 }
  { s with
    cursorX := signed32 ((s.x + s.w / 2) % 2 ^ 32)
    cursorY := signed32 ((s.y + s.h / 2) % 2 ^ 32) }

/-- The first device with the capabilities is kept. -/
def chosen (old : Option EiDevice) (capable : Bool) (device : EiDevice) : Option EiDevice :=
  if old.isNone && capable then some device else old

def addDevice (s : EiScreen) (device : EiDevice) : EiScreen :=
  let has := ei.capabilities device
  updateShape ei
    { s with
      eiPointer := chosen s.eiPointer (has.pointer && has.button && has.scroll) device
      eiKeyboard := chosen s.eiKeyboard has.keyboard device
      eiAbs := chosen s.eiAbs (has.pointerAbsolute && has.button && has.scroll) device
      eiDevices := s.eiDevices ++ [device] }

def removeDevice (s : EiScreen) (device : EiDevice) : EiScreen :=
  updateShape ei
    { s with
      eiPointer := if s.eiPointer = some device then none else s.eiPointer
      eiKeyboard := if s.eiKeyboard = some device then none else s.eiKeyboard
      eiAbs := if s.eiAbs = some device then none else s.eiAbs
      eiDevices := s.eiDevices.erase device }

def step (s : EiScreen) : DeviceCall → EiScreen
  | .addDevice device => s.addDevice ei device
  | .removeDevice device => s.removeDevice ei device

def getShape (s : EiScreen) : Rect := ⟨signed32 s.x, signed32 s.y, signed32 s.w, signed32 s.h⟩

/-- The regions of the devices that are present. -/
def regions (s : EiScreen) : List EiRegion := s.eiDevices.flatMap ei.regions

/-- The shape is the smallest rectangle around the regions, with the cursor in it; without a region it still has a
positive size and coordinates of 31 bits. -/
structure Shaped (s : EiScreen) : Prop where
  smallest : s.regions ei ≠ [] → s.getShape.Smallest ((s.regions ei).map EiRegion.rect)
  cursor : s.regions ei ≠ [] → s.getShape.Contains s.cursorX s.cursorY
  empty : s.regions ei = [] → s.x < 2 ^ 31 ∧ s.y < 2 ^ 31 ∧ 0 < s.getShape.w ∧ 0 < s.getShape.h

/-- The devices after a call. -/
def devicesAfter (devices : List EiDevice) : DeviceCall → List EiDevice
  | .addDevice device => devices ++ [device]
  | .removeDevice device => devices.erase device

/-- Of the regions that a call leaves one begins at the left and one at the top. -/
def AtOrigin (s : EiScreen) (call : DeviceCall) : Prop :=
  (∃ r ∈ (devicesAfter s.eiDevices call).flatMap ei.regions, r.x = 0) ∧
    ∃ r ∈ (devicesAfter s.eiDevices call).flatMap ei.regions, r.y = 0

section
variable {ei : Ei}

theorem foldl_devices (devices : List EiDevice) (s : EiScreen) :
    devices.foldl (fun s device => (ei.regions device).foldl addRegion s) s =
      (devices.flatMap ei.regions).foldl addRegion s := by
  induction devices generalizing s with
  | nil => rfl
  | cons device devices ih => rw [List.foldl_cons, List.flatMap_cons, List.foldl_append, ih]

/-- The shape over some regions is a fold for each edge. -/
theorem foldl_addRegion (regions : List EiRegion) (s : EiScreen) :
    (regions.foldl addRegion s).x = (regions.map (·.x)).foldl (fun least b => min b least) s.x ∧
      (regions.foldl addRegion s).y = (regions.map (·.y)).foldl (fun least b => min b least) s.y ∧
      (regions.foldl addRegion s).w =
        (regions.map fun r => r.x + r.width).foldl (fun greatest b => max b greatest) s.w ∧
      (regions.foldl addRegion s).h =
        (regions.map fun r => r.y + r.height).foldl (fun greatest b => max b greatest) s.h := by
  induction regions generalizing s with
  | nil => exact ⟨rfl, rfl, rfl, rfl⟩
  | cons r regions ih =>
    have hright : (r.x + r.width) % 2 ^ 32 = r.x + r.width := Nat.mod_eq_of_lt (r.right_lt.trans (by decide))
    have hbottom : (r.y + r.height) % 2 ^ 32 = r.y + r.height := Nat.mod_eq_of_lt (r.bottom_lt.trans (by decide))
    have hstep : s.addRegion r = { s with
        x := min r.x s.x
        y := min r.y s.y
        w := max (r.x + r.width) s.w
        h := max (r.y + r.height) s.h } := by rw [addRegion, hright, hbottom]
    rw [List.foldl_cons, hstep]
    exact ih _

/-- The shape after the devices have changed: the least origins and the largest edges of the regions. -/
structure Edges (s : EiScreen) (regions : List EiRegion) : Prop where
  x : IsLeast {b | b = uint32Max ∨ b ∈ regions.map (·.x)} s.x
  y : IsLeast {b | b = uint32Max ∨ b ∈ regions.map (·.y)} s.y
  w : IsGreatest {b | b = 1 ∨ b ∈ regions.map fun r => r.x + r.width} s.w
  h : IsGreatest {b | b = 1 ∨ b ∈ regions.map fun r => r.y + r.height} s.h
  cursorX : s.cursorX = signed32 ((s.x + s.w / 2) % 2 ^ 32)
  cursorY : s.cursorY = signed32 ((s.y + s.h / 2) % 2 ^ 32)

theorem edges_updateShape (s : EiScreen) : Edges (s.updateShape ei) (s.regions ei) := by
  have hfold := foldl_addRegion (s.regions ei) { s with x := uint32Max, y := uint32Max, w := 1, h := 1 }
  rw [regions, ← foldl_devices] at hfold
  obtain ⟨hx, hy, hw, hh⟩ := hfold
  refine ⟨?_, ?_, ?_, ?_, by rw [updateShape], by rw [updateShape]⟩
  · rw [updateShape]
    dsimp only
    rw [hx]
    exact isLeast_foldl_min _ _
  · rw [updateShape]
    dsimp only
    rw [hy]
    exact isLeast_foldl_min _ _
  · rw [updateShape]
    dsimp only
    rw [hw]
    exact isGreatest_foldl_max _ _
  · rw [updateShape]
    dsimp only
    rw [hh]
    exact isGreatest_foldl_max _ _

/-- What the edges are when there is a region. -/
theorem Edges.spec {s : EiScreen} {regions : List EiRegion} (h : Edges s regions) {r : EiRegion} (hr : r ∈ regions) :
    (s.x ≤ r.x ∧ r.x + r.width ≤ s.w) ∧ (s.y ≤ r.y ∧ r.y + r.height ≤ s.h) ∧
      (∃ q ∈ regions, s.x = q.x) ∧ (∃ q ∈ regions, s.y = q.y) ∧ (∃ q ∈ regions, s.w = q.x + q.width) ∧
      ∃ q ∈ regions, s.h = q.y + q.height := by
  have hx := h.x.2 (.inr (List.mem_map_of_mem hr))
  have hy := h.y.2 (.inr (List.mem_map_of_mem hr))
  have hw := h.w.2 (.inr (List.mem_map_of_mem hr))
  have hh := h.h.2 (.inr (List.mem_map_of_mem hr))
  have hpos := r.width_pos
  have hpos' := r.height_pos
  have hlt := r.right_lt
  have hlt' := r.bottom_lt
  have hmax : uint32Max = 4294967295 := rfl
  refine ⟨⟨hx, hw⟩, ⟨hy, hh⟩, ?_, ?_, ?_, ?_⟩
  · rcases h.x.1 with heq | hmem
    · omega
    · obtain ⟨q, hq, heq⟩ := List.mem_map.mp hmem
      exact ⟨q, hq, heq.symm⟩
  · rcases h.y.1 with heq | hmem
    · omega
    · obtain ⟨q, hq, heq⟩ := List.mem_map.mp hmem
      exact ⟨q, hq, heq.symm⟩
  · rcases h.w.1 with heq | hmem
    · exact ⟨r, hr, by omega⟩
    · obtain ⟨q, hq, heq⟩ := List.mem_map.mp hmem
      exact ⟨q, hq, heq.symm⟩
  · rcases h.h.1 with heq | hmem
    · exact ⟨r, hr, by omega⟩
    · obtain ⟨q, hq, heq⟩ := List.mem_map.mp hmem
      exact ⟨q, hq, heq.symm⟩

theorem signed32_small {n : Nat} (h : n < 2 ^ 31) : signed32 n = n := if_pos h

/-- The shape of some regions is what it should be if it begins at the origin, and only then. -/
theorem shaped_iff {s : EiScreen} (h : Edges s (s.regions ei)) :
    Shaped ei s ↔ (∃ r ∈ s.regions ei, r.x = 0) ∧ ∃ r ∈ s.regions ei, r.y = 0 := by
  cases hregions : s.regions ei with
  | nil =>
    refine iff_of_false (fun hshaped => ?_) (fun ⟨⟨r, hr, _⟩, _⟩ => absurd hr List.not_mem_nil)
    obtain ⟨hx, -⟩ := hshaped.empty hregions
    rw [hregions] at h
    rcases h.x.1 with heq | hmem
    · rw [heq] at hx
      exact absurd hx (by decide)
    · exact absurd hmem List.not_mem_nil
  | cons r rest =>
    have hr : r ∈ s.regions ei := by rw [hregions]; exact List.mem_cons_self
    have hsome : s.regions ei ≠ [] := List.ne_nil_of_mem hr
    rw [← hregions]
    have hspec := fun q (hq : q ∈ s.regions ei) => h.spec hq
    obtain ⟨-, -, ⟨a, ha, hxa⟩, ⟨b, hb, hyb⟩, ⟨c, hc, hwc⟩, d, hd, hhd⟩ := hspec r hr
    have hshape : s.getShape = ⟨s.x, s.y, s.w, s.h⟩ := by
      have := a.right_lt
      have := b.bottom_lt
      have := c.right_lt
      have := d.bottom_lt
      rw [getShape, signed32_small (by omega), signed32_small (by omega), signed32_small (by omega), signed32_small (by omega)]
    refine ⟨fun hshaped => ?_, ?_⟩
    · have hleast := (hshaped.smallest hsome).least ⟨s.x, s.y, s.w - s.x, s.h - s.y⟩ ?_
      · rw [hshape] at hleast
        have hright := hleast.right
        have hbottom := hleast.bottom
        dsimp only at hright hbottom
        exact ⟨⟨a, ha, by omega⟩, ⟨b, hb, by omega⟩⟩
      · intro q hq
        obtain ⟨p, hp, rfl⟩ := List.mem_map.mp hq
        obtain ⟨⟨hx, hw⟩, ⟨hy, hh⟩, -⟩ := hspec p hp
        constructor <;> simp only [EiRegion.rect] <;> omega
    · rintro ⟨⟨p, hp, hpx⟩, q, hq, hqy⟩
      have hx : s.x = 0 := Nat.le_zero.mp (hpx ▸ (hspec p hp).1.1)
      have hy : s.y = 0 := Nat.le_zero.mp (hqy ▸ (hspec q hq).2.1.1)
      refine ⟨fun _ => ⟨?_, ?_⟩, fun _ => ?_, fun hnone => absurd hnone hsome⟩
      · intro r' hr'
        obtain ⟨p', hp', rfl⟩ := List.mem_map.mp hr'
        obtain ⟨⟨hx', hw'⟩, ⟨hy', hh'⟩, -⟩ := hspec p' hp'
        rw [hshape]
        constructor <;> simp only [EiRegion.rect] <;> omega
      · intro box' hbox'
        have hleft := (hbox' a.rect (List.mem_map_of_mem ha)).left
        have htop := (hbox' b.rect (List.mem_map_of_mem hb)).top
        have hright := (hbox' c.rect (List.mem_map_of_mem hc)).right
        have hbottom := (hbox' d.rect (List.mem_map_of_mem hd)).bottom
        simp only [EiRegion.rect] at hleft htop hright hbottom
        rw [hshape]
        constructor <;> dsimp only <;> omega
      · have hpos := c.width_pos
        have hpos' := d.height_pos
        have hlt := c.right_lt
        have hlt' := d.bottom_lt
        have hcursorX : s.cursorX = (s.w / 2 : Nat) := by
          rw [h.cursorX, hx, Nat.zero_add, Nat.mod_eq_of_lt (by omega), signed32_small (by omega)]
        have hcursorY : s.cursorY = (s.h / 2 : Nat) := by
          rw [h.cursorY, hy, Nat.zero_add, Nat.mod_eq_of_lt (by omega), signed32_small (by omega)]
        rw [hshape, hcursorX, hcursorY, Rect.Contains]
        dsimp only
        omega

theorem eiDevices_updateShape (s : EiScreen) : (s.updateShape ei).eiDevices = s.eiDevices := by
  have hfold (l : List EiRegion) (t : EiScreen) : (l.foldl addRegion t).eiDevices = t.eiDevices := by
    induction l generalizing t with
    | nil => rfl
    | cons r l ih => exact ih (t.addRegion r)
  rw [updateShape, foldl_devices]
  exact (hfold _ _).trans rfl

theorem regions_step (s : EiScreen) (call : DeviceCall) :
    (s.step ei call).regions ei = (devicesAfter s.eiDevices call).flatMap ei.regions := by
  cases call with
  | addDevice device => rw [step, addDevice, regions, eiDevices_updateShape]; rfl
  | removeDevice device => rw [step, removeDevice, regions, eiDevices_updateShape]; rfl

theorem edges_step (s : EiScreen) (call : DeviceCall) : Edges (s.step ei call) ((s.step ei call).regions ei) := by
  have hall (t : EiScreen) : Edges (t.updateShape ei) ((t.updateShape ei).regions ei) := by
    have hedges := @edges_updateShape ei t
    rw [regions, eiDevices_updateShape]
    exact hedges
  cases call with
  | addDevice device => exact hall _
  | removeDevice device => exact hall _

/-- After every call of a run the shape is what it should be if all calls leave a region at the left and one at the top,
and only then. -/
theorem shape_boxes {tr : List (DeviceCall × EiScreen)} (hr : Trace (fun s call s' => s' = s.step ei call) {} tr) :
    Always (Shaped ei) tr ↔ EachStep (fun s call _ => AtOrigin ei s call) {} tr := by
  rw [← eachStep_state_iff (Shaped ei) {} tr]
  refine hr.eachStep_iff (fun _ => True) ?_ (fun _ _ _ _ _ _ => trivial) trivial
  rintro s call s' - rfl
  rw [shaped_iff (edges_step s call), regions_step]
  rfl

end

/-- A device with one region, at the origin or not. -/
def monitor (x : Nat) (hx : x < 2 ^ 30) : Ei where
  regions _ := [⟨x, 0, 1920, 1080, by decide, by decide, by omega, by decide⟩]
  capabilities _ := ⟨true, true, true, true, true⟩

theorem shape_boxes_origin : Always (Shaped (monitor 0 (by decide)))
    (runTrace (step (monitor 0 (by decide))) {} [.addDevice 1]) :=
  (shape_boxes (trace_runTrace _ _ _)).mpr ⟨⟨⟨_, List.mem_singleton_self _, rfl⟩, ⟨_, List.mem_singleton_self _, rfl⟩⟩,
    trivial⟩

/-- The only output begins at 1920, and its right edge is taken for its width. -/
theorem edge_taken_for_width : ¬∀ (ei : Ei) (calls : List DeviceCall), Always (Shaped ei)
    (runTrace (step ei) {} calls) := by
  intro h
  have hshaped : Shaped (monitor 1920 (by decide)) (step (monitor 1920 (by decide)) {} (.addDevice 1)) :=
    h (monitor 1920 (by decide)) [.addDevice 1] _ List.mem_cons_self
  obtain ⟨⟨r, hr, hx⟩, -⟩ := (shaped_iff (edges_step _ _)).mp hshaped
  rw [regions_step] at hr
  obtain rfl := List.mem_singleton.mp hr
  exact absurd hx (by decide)

end EiScreen
end Synergy
