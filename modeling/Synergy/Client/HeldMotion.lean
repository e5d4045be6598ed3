import Synergy.Client.ServerProxy
import Synergy.Lib.Trace

/-! The motion of the mouse that the client's end of the connection holds back while more input follows: where it puts
the cursor, against where the messages say it is. -/
namespace Synergy
open ProtocolUtil

abbrev Cursor := Int × Int

/-- Where a call to the client puts the cursor. -/
def ClientCall.moves : ClientCall → Cursor → Cursor
  | .mouseMove x y, _ => (x, y)
  | .mouseRelativeMove dx dy, p => (p.1 + dx, p.2 + dy)
  | .enter x y _ _ _, _ => (x, y)
  | _, p => p

def Effect.moves : Effect → Cursor → Cursor
  | .call c, p => c.moves p
  | _, p => p

/-- The cursor once the motion that is held back has been flushed. -/
def CompressedMouse.flushed (m : CompressedMouse) (p : Cursor) : Cursor :=
  let p := if m.compressMouse then (m.xMouse, m.yMouse) else p
  if m.compressMouseRelative then (p.1 + m.dxMouse, p.2 + m.dyMouse) else p

namespace ProxyRun

/-- The cursor, from its origin `o`, after all that has been done. -/
def cursor (o : Cursor) (r : ProxyRun) : Cursor := r.effects.foldl (fun p e => e.moves p) o

/-- The cursor after all that has been done or is held back. -/
def shown (o : Cursor) (r : ProxyRun) : Cursor := r.proxy.mouse.flushed (r.cursor o)

/-- The numbers of a message about the mouse, and the run that has read them. -/
def readMotion (fmt : Bytes) (r : ProxyRun) : Option Cursor × ProxyRun :=
  match r.readOrDisconnect fmt [.int 0, .int 0] with
  | (some [.int x, .int y], r) => (some (int16 x, int16 y), r)
  | (_, r) => (none, r)

/-- The position of a message to enter the screen. -/
def readEnter (r : ProxyRun) : Option Cursor :=
  match r.readOrDisconnect kMsgCEnter [.int 0, .int 0, .int 0, .int 0] with
  | (some [.int x, .int y, .int _, .int _], _) => some (int16 x, int16 y)
  | _ => none

/-- Where a message says that the cursor is. -/
def aimed (code : Bytes) (r : ProxyRun) (p : Cursor) : Cursor :=
  if r.proxy.parser = .handshake then p
  else if code = codeOf kMsgDMouseMove then (r.readMotion kMsgDMouseMove).1.getD p
  else if code = codeOf kMsgDMouseRelMove then
    (r.readMotion kMsgDMouseRelMove).1.elim p fun d => (p.1 + d.1, p.2 + d.2)
  else if code = codeOf kMsgCEnter then r.readEnter.getD p
  else p

/-- What has been done moves nothing. -/
structure Unshifted (r r' : ProxyRun) : Prop where
  mouse : r'.proxy.mouse = r.proxy.mouse
  ignores : r.proxy.ignoreMouse = false → r'.proxy.ignoreMouse = false
  cursor : ∀ p, r'.cursor p = r.cursor p

namespace Unshifted
variable {r r' r'' : ProxyRun}

theorem refl (r : ProxyRun) : Unshifted r r := ⟨rfl, id, fun _ => rfl⟩

theorem trans (h : Unshifted r r') (h' : Unshifted r' r'') : Unshifted r r'' :=
  ⟨h'.mouse.trans h.mouse, fun hi => h'.ignores (h.ignores hi), fun p => (h'.cursor p).trans (h.cursor p)⟩

theorem effect (r : ProxyRun) {e : Effect} (he : ∀ p, e.moves p = p) :
    Unshifted r { r with effects := r.effects ++ [e] } := by
  refine ⟨rfl, id, fun p => ?_⟩
  unfold ProxyRun.cursor
  rw [List.foldl_append]
  exact he _

theorem call (r : ProxyRun) {c : ClientCall} (hc : ∀ p, c.moves p = p) : Unshifted r (r.call c) :=
  effect r (e := .call c) hc

theorem write (r : ProxyRun) (fmt : Bytes) (args : List Arg) : Unshifted r (r.write fmt args) := effect r fun _ => rfl

theorem read (r : ProxyRun) (s : IStream) : Unshifted r (r.read s) :=
  (effect r (e := .read) fun _ => rfl).trans ⟨rfl, id, fun _ => rfl⟩

theorem throw (r : ProxyRun) (e : ReadError) : Unshifted r (r.throw e) := ⟨rfl, id, fun _ => rfl⟩

theorem update (r : ProxyRun) {f : ServerProxy → ServerProxy} (hmouse : (f r.proxy).mouse = r.proxy.mouse)
    (hignores : r.proxy.ignoreMouse = false → (f r.proxy).ignoreMouse = false) : Unshifted r (r.update f) :=
  (effect r (e := .update) fun _ => rfl).trans ⟨hmouse, hignores, fun _ => rfl⟩

theorem readOrDisconnect {fmt : Bytes} {args : List Arg} {out : Option (List Arg)}
    (h : r.readOrDisconnect fmt args = (out, r')) : Unshifted r r' := by
  unfold ProxyRun.readOrDisconnect at h
  split at h
  · cases h
    exact read r _
  · cases h
    exact (read r _).trans (call _ fun _ => rfl)
  · cases h
    exact (read r _).trans (throw _ _)

end Unshifted

section
variable (a : Answers) (r : ProxyRun)

/-- What is held back is flushed first, and nothing moves after that. -/
def Acted (r r' : ProxyRun) : Prop := Unshifted r.flushCompressedMouse r'

end

/-- Mouse motion is not ignored, and none is added up that is not held back. -/
def Steady (r : ProxyRun) : Prop :=
  r.proxy.ignoreMouse = false ∧
    (r.proxy.mouse.compressMouseRelative = false → r.proxy.mouse.dxMouse = 0 ∧ r.proxy.mouse.dyMouse = 0)

section
variable {a : Answers} {r r' : ProxyRun} {o : Cursor} {result : ConnectionResult}

theorem Unshifted.steady (h : Unshifted r r') (hr : r.Steady) : r'.Steady := by
  unfold Steady
  rw [h.mouse]
  exact ⟨h.ignores hr.1, hr.2⟩

theorem Unshifted.shown (h : Unshifted r r') : r'.shown o = r.shown o := by
  unfold ProxyRun.shown
  rw [h.mouse, h.cursor]

/-- Once it is flushed, nothing is held back and the cursor is where it was shown. -/
theorem flushed_spec (hr : r.Steady) : r.flushCompressedMouse.Steady ∧
    r.flushCompressedMouse.cursor o = r.shown o ∧ r.flushCompressedMouse.shown o = r.shown o := by
  obtain ⟨hignores, hnone⟩ := hr
  unfold flushCompressedMouse shown CompressedMouse.flushed Steady
  cases hmove : r.proxy.mouse.compressMouse <;> cases hrelative : r.proxy.mouse.compressMouseRelative <;>
    simp_all [ClientCall.moves, update, call, cursor, Effect.moves]

theorem Acted.spec (h : Acted r r') (hr : r.Steady) :
    r'.Steady ∧ r'.cursor o = r.shown o ∧ r'.shown o = r.shown o := by
  obtain ⟨hsteady, hcursor, hshown⟩ := flushed_spec (o := o) hr
  exact ⟨Unshifted.steady h hsteady, (h.cursor o).trans hcursor, (Unshifted.shown h).trans hshown⟩

/-- The motion of a message goes ahead of what is held back, or does not fit in its sum. -/
def Straggles (a : Answers) (code : Bytes) (r : ProxyRun) : Prop :=
  let m := r.proxy.mouse
  r.proxy.parser = .message ∧
    (code = codeOf kMsgDMouseMove ∧ (r.readMotion kMsgDMouseMove).1.isSome ∧ m.compressMouse = false ∧
        a.isReady (r.readMotion kMsgDMouseMove).2.stream = false ∧ m.compressMouseRelative = true ∧
        (m.dxMouse ≠ 0 ∨ m.dyMouse ≠ 0) ∨
      code = codeOf kMsgDMouseRelMove ∧ ∃ d, (r.readMotion kMsgDMouseRelMove).1 = some d ∧
        if m.compressMouseRelative = true ∨ a.isReady (r.readMotion kMsgDMouseRelMove).2.stream = true then
          int32 (m.dxMouse + d.1) ≠ m.dxMouse + d.1 ∨ int32 (m.dyMouse + d.2) ≠ m.dyMouse + d.2
        else m.compressMouse = true ∧ (d.1 ≠ 0 ∨ d.2 ≠ 0))

/-- The messages that act where the cursor is. -/
def acting : List Bytes :=
  [codeOf kMsgDMouseWheel, codeOf kMsgDKeyDown, codeOf kMsgDKeyDownLang, codeOf kMsgDKeyUp, codeOf kMsgDMouseDown,
    codeOf kMsgDMouseUp, codeOf kMsgDKeyRepeat, codeOf kMsgCLeave]

/-- The cursor is shown where the message says, and what the message does is done there. -/
def Follows (o : Cursor) (code : Bytes) (r r' : ProxyRun) : Prop :=
  r'.shown o = aimed code r (r.shown o) ∧
    (r.proxy.parser = .message → code ∈ acting → r'.cursor o = r.shown o)

/-- A message that does not end the connection is followed exactly where it does not straggle. -/
def Handled (a : Answers) (o : Cursor) (code : Bytes) (r : ProxyRun) (out : ConnectionResult × ProxyRun) : Prop :=
  out.1 ≠ .disconnect → out.2.Steady ∧ (Follows o code r out.2 ↔ ¬Straggles a code r)

end

end ProxyRun
end Synergy
