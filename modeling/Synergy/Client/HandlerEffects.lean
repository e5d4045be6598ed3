import Synergy.Client.ProxyProgress

/-! What each handler does: which calls it can make, and when it tells the client to
disconnect. -/
namespace Synergy
open ProtocolUtil ReadM
namespace ProxyRun

section
variable {P : Effect → Prop} (hP : Effect.Usual P)
include hP

theorem outcome_enter {r : ProxyRun} (hr : r.thrown = none)
    (hc : ∀ x y seqNum mask, P (.call (.enter x y seqNum mask false))) :
    Outcome P (cutShort kMsgCEnter [.int 0, .int 0, .int 0, .int 0] r.stream) r r.enter := by
  refine outcome_of_read hP (.refl r) hr rfl rfl (fun q h => by simp only [enter, h]) fun args' s' hread hkind h => ?_
  simp only [List.map_eq_cons_iff, List.map_eq_nil_iff, Arg.kind_eq_int] at hkind
  obtain ⟨-, -, rfl, ⟨x, rfl⟩, -, -, rfl, ⟨y, rfl⟩, -, -, rfl, ⟨seqNum, rfl⟩, -, -, rfl, ⟨mask, rfl⟩, rfl⟩ := hkind
  simp only [enter, h]
  exact (onward_update hP _ (by rfl)).trans (onward_call (hc _ _ _ _) _)

theorem onward_leave (hmove : ∀ x y, P (.call (.mouseMove x y))) (hrel : ∀ dx dy, P (.call (.mouseRelativeMove dx dy)))
    (hc : P (.call .leave)) (r : ProxyRun) : Onward P r r.leave :=
  (onward_flushCompressedMouse hP hmove hrel r).trans (onward_call hc _)

/-- The chunk of a clipboard is refused. -/
def clipboardRefused (a : Answers) (r : ProxyRun) : Bool :=
  match ClipboardChunk.assemble r.proxy.clipboardDataCached r.proxy.clipboardChunkState
      a.maximumClipboardReceiveSize r.stream with
  | (.ok c, _) => c.transfer == .error
  | (.error _, _) => false

theorem outcome_setClipboard {a : Answers} {r : ProxyRun} (hr : r.thrown = none)
    (hsize : P (.call .getMaximumClipboardReceiveSizeBytes))
    (hc : ∀ id clipboard, P (.call (.setClipboard id clipboard))) :
    Outcome P (clipboardRefused a r) r (r.setClipboard a) := by
  have hlength := ClipboardChunk.shortens_assemble r.proxy.clipboardDataCached r.proxy.clipboardChunkState
    a.maximumClipboardReceiveSize r.stream
  cases h : ClipboardChunk.assemble r.proxy.clipboardDataCached r.proxy.clipboardChunkState
      a.maximumClipboardReceiveSize r.stream with
  | mk result s =>
    rw [h] at hlength
    have hread : Onward P r ((r.call .getMaximumClipboardReceiveSizeBytes).read s) :=
      (onward_call hsize r).trans (onward_read hP _ hlength)
    cases result with
    | error e =>
      have hset : r.setClipboard a = ((r.call .getMaximumClipboardReceiveSizeBytes).read s).throw e := by
        simp only [setClipboard, call, h]
      rw [hset]
      exact .goesOn (by simp [clipboardRefused, h]) (hread.trans (onward_throw _ e))
    | ok c =>
      have hset : r.setClipboard a = ((r.call .getMaximumClipboardReceiveSizeBytes).read s).onClipboardAssembled c := by
        simp only [setClipboard, call, h]
      have hrefused : clipboardRefused a r = (c.transfer == .error) := by
        simp only [clipboardRefused, h]
      have hbase := hread.trans (onward_update hP _ (by rfl) (f := fun p => { p with
        clipboardDataCached := c.dataCached, clipboardChunkState := c.state }))
      rw [hset, hrefused]
      unfold onClipboardAssembled
      cases c.transfer with
      | started => exact .goesOn rfl hbase
      | inProgress => exact .goesOn rfl hbase
      | finished => exact .goesOn rfl ((hbase.trans (onward_call (hc _ _) _)).trans (onward_update hP _ (by rfl)))
      | error => exact .stops rfl (hbase.stop (stop_call rfl _)) hr

theorem outcome_grabClipboard {r : ProxyRun} (hr : r.thrown = none) (hc : ∀ id, P (.call (.grabClipboard id))) :
    Outcome P (cutShort kMsgCClipboard [.int 0, .int 0] r.stream) r r.grabClipboard := by
  refine outcome_of_read hP (.refl r) hr rfl rfl (fun q h => by simp only [grabClipboard, h]) fun args' s' hread hkind h => ?_
  simp only [List.map_eq_cons_iff, List.map_eq_nil_iff, Arg.kind_eq_int] at hkind
  obtain ⟨-, -, rfl, ⟨id, rfl⟩, -, -, rfl, ⟨seqNum, rfl⟩, rfl⟩ := hkind
  simp only [grabClipboard, h]
  split
  · exact .refl _
  · exact onward_call (hc id) _

theorem outcome_keyUp {r : ProxyRun} (hr : r.thrown = none)
    (hmove : ∀ x y, P (.call (.mouseMove x y))) (hrel : ∀ dx dy, P (.call (.mouseRelativeMove dx dy)))
    (hc : ∀ id mask button, P (.call (.keyUp id mask button))) :
    Outcome P (cutShort kMsgDKeyUp [.int 0, .int 0, .int 0] r.stream) r r.keyUp := by
  refine outcome_of_read hP (onward_flushCompressedMouse hP hmove hrel r) ((flushCompressedMouse_thrown r).trans hr)
    (flushCompressedMouse_stream r) rfl (fun q h => by simp only [keyUp, h]) fun args' s' hread hkind h => ?_
  simp only [List.map_eq_cons_iff, List.map_eq_nil_iff, Arg.kind_eq_int] at hkind
  obtain ⟨-, -, rfl, ⟨id, rfl⟩, -, -, rfl, ⟨mask, rfl⟩, -, -, rfl, ⟨button, rfl⟩, rfl⟩ := hkind
  simp only [keyUp, h]
  exact onward_call (hc _ _ _) _

theorem outcome_mouseDown {r : ProxyRun} (hr : r.thrown = none)
    (hmove : ∀ x y, P (.call (.mouseMove x y))) (hrel : ∀ dx dy, P (.call (.mouseRelativeMove dx dy)))
    (hc : ∀ id, P (.call (.mouseDown id))) :
    Outcome P (cutShort kMsgDMouseDown [.int 0] r.stream) r r.mouseDown := by
  refine outcome_of_read hP (onward_flushCompressedMouse hP hmove hrel r) ((flushCompressedMouse_thrown r).trans hr)
    (flushCompressedMouse_stream r) rfl (fun q h => by simp only [mouseDown, h]) fun args' s' hread hkind h => ?_
  simp only [List.map_eq_cons_iff, List.map_eq_nil_iff, Arg.kind_eq_int] at hkind
  obtain ⟨-, -, rfl, ⟨id, rfl⟩, rfl⟩ := hkind
  simp only [mouseDown, h]
  exact onward_call (hc _) _

theorem outcome_mouseUp {r : ProxyRun} (hr : r.thrown = none)
    (hmove : ∀ x y, P (.call (.mouseMove x y))) (hrel : ∀ dx dy, P (.call (.mouseRelativeMove dx dy)))
    (hc : ∀ id, P (.call (.mouseUp id))) :
    Outcome P (cutShort kMsgDMouseUp [.int 0] r.stream) r r.mouseUp := by
  refine outcome_of_read hP (onward_flushCompressedMouse hP hmove hrel r) ((flushCompressedMouse_thrown r).trans hr)
    (flushCompressedMouse_stream r) rfl (fun q h => by simp only [mouseUp, h]) fun args' s' hread hkind h => ?_
  simp only [List.map_eq_cons_iff, List.map_eq_nil_iff, Arg.kind_eq_int] at hkind
  obtain ⟨-, -, rfl, ⟨id, rfl⟩, rfl⟩ := hkind
  simp only [mouseUp, h]
  exact onward_call (hc _) _

theorem onward_onMouseMove {a : Answers} {x y : Int} (hc : P (.call (.mouseMove x y))) (r : ProxyRun) :
    Onward P r (r.onMouseMove a x y) := by
  have hcompress : Onward P r (if !r.proxy.ignoreMouse && !r.proxy.mouse.compressMouse && a.isReady r.stream then
      r.update fun p => { p with mouse := { p.mouse with compressMouse := true } } else r) := by
    split
    · exact onward_update hP _ (by rfl)
    · exact .refl r
  have hforward : ∀ r' : ProxyRun, Onward P r' (if r'.proxy.mouse.compressMouse then
      r'.update fun p => { p with
        mouse := { p.mouse with compressMouseRelative := false, xMouse := x, yMouse := y, dxMouse := 0, dyMouse := 0 } }
      else if r.proxy.ignoreMouse then r' else r'.call (.mouseMove x y)) := by
    intro r'
    split
    · exact onward_update hP _ (by rfl)
    · split
      · exact .refl _
      · exact onward_call hc _
  exact hcompress.trans (hforward _)

theorem outcome_mouseMove {a : Answers} {r : ProxyRun} (hr : r.thrown = none) (hc : ∀ x y, P (.call (.mouseMove x y))) :
    Outcome P (cutShort kMsgDMouseMove [.int 0, .int 0] r.stream) r (r.mouseMove a) := by
  refine outcome_of_read hP (.refl r) hr rfl rfl (fun q h => by simp only [mouseMove, h]) fun args' s' hread hkind h => ?_
  simp only [List.map_eq_cons_iff, List.map_eq_nil_iff, Arg.kind_eq_int] at hkind
  obtain ⟨-, -, rfl, ⟨x, rfl⟩, -, -, rfl, ⟨y, rfl⟩, rfl⟩ := hkind
  simp only [mouseMove, h]
  exact onward_onMouseMove hP (hc _ _) _

theorem onward_onMouseRelativeMove {a : Answers} {dx dy : Int} (hc : P (.call (.mouseRelativeMove dx dy)))
    (r : ProxyRun) : Onward P r (r.onMouseRelativeMove a dx dy) := by
  have hcompress : Onward P r (if !r.proxy.ignoreMouse && !r.proxy.mouse.compressMouseRelative && a.isReady r.stream
      then r.update fun p => { p with mouse := { p.mouse with compressMouseRelative := true } } else r) := by
    split
    · exact onward_update hP _ (by rfl)
    · exact .refl r
  have hforward : ∀ r' : ProxyRun, Onward P r' (if r'.proxy.mouse.compressMouseRelative then
      r'.update fun p => { p with
        mouse := { p.mouse with dxMouse := int32 (p.mouse.dxMouse + dx), dyMouse := int32 (p.mouse.dyMouse + dy) } }
      else if r.proxy.ignoreMouse then r' else r'.call (.mouseRelativeMove dx dy)) := by
    intro r'
    split
    · exact onward_update hP _ (by rfl)
    · split
      · exact .refl _
      · exact onward_call hc _
  exact hcompress.trans (hforward _)

theorem outcome_mouseRelativeMove {a : Answers} {r : ProxyRun} (hr : r.thrown = none)
    (hc : ∀ dx dy, P (.call (.mouseRelativeMove dx dy))) :
    Outcome P (cutShort kMsgDMouseRelMove [.int 0, .int 0] r.stream) r (r.mouseRelativeMove a) := by
  refine outcome_of_read hP (.refl r) hr rfl rfl (fun q h => by simp only [mouseRelativeMove, h])
    fun args' s' hread hkind h => ?_
  simp only [List.map_eq_cons_iff, List.map_eq_nil_iff, Arg.kind_eq_int] at hkind
  obtain ⟨-, -, rfl, ⟨dx, rfl⟩, -, -, rfl, ⟨dy, rfl⟩, rfl⟩ := hkind
  simp only [mouseRelativeMove, h]
  exact onward_onMouseRelativeMove hP (hc _ _) _

theorem outcome_mouseWheel {r : ProxyRun} (hr : r.thrown = none)
    (hmove : ∀ x y, P (.call (.mouseMove x y))) (hrel : ∀ dx dy, P (.call (.mouseRelativeMove dx dy)))
    (hc : ∀ x y, P (.call (.mouseWheel x y))) :
    Outcome P (cutShort kMsgDMouseWheel [.int 0, .int 0] r.stream) r r.mouseWheel := by
  refine outcome_of_read hP (onward_flushCompressedMouse hP hmove hrel r) ((flushCompressedMouse_thrown r).trans hr)
    (flushCompressedMouse_stream r) rfl (fun q h => by simp only [mouseWheel, h]) fun args' s' hread hkind h => ?_
  simp only [List.map_eq_cons_iff, List.map_eq_nil_iff, Arg.kind_eq_int] at hkind
  obtain ⟨-, -, rfl, ⟨xDelta, rfl⟩, -, -, rfl, ⟨yDelta, rfl⟩, rfl⟩ := hkind
  simp only [mouseWheel, h]
  exact onward_call (hc _ _) _

theorem outcome_screensaver {r : ProxyRun} (hr : r.thrown = none) (hc : ∀ on, P (.call (.screensaver on))) :
    Outcome P (cutShort kMsgCScreenSaver [.int 0] r.stream) r r.screensaver := by
  refine outcome_of_read hP (.refl r) hr rfl rfl (fun q h => by simp only [screensaver, h]) fun args' s' hread hkind h => ?_
  simp only [List.map_eq_cons_iff, List.map_eq_nil_iff, Arg.kind_eq_int] at hkind
  obtain ⟨-, -, rfl, ⟨on, rfl⟩, rfl⟩ := hkind
  simp only [screensaver, h]
  exact onward_call (hc _) _

theorem onward_resetOptions (hc : P (.call .resetOptions)) (r : ProxyRun) : Onward P r r.resetOptions :=
  ((onward_call hc r).trans (onward_update hP _ (by rfl))).trans (onward_update hP _ (by rfl))

theorem onward_applyOptions (options : List Nat) (r : ProxyRun) : Onward P r (r.applyOptions options) := by
  fun_induction applyOptions options r with
  | case1 option value options r ih =>
    refine Onward.trans ?_ ih
    unfold applyOption
    split
    · exact onward_update hP _ (by rfl)
    · split
      · exact onward_update hP _ (by rfl)
      · exact .refl r
  | case2 => exact .refl _

theorem outcome_setOptions {r : ProxyRun} (hr : r.thrown = none) (hc : ∀ options, P (.call (.setOptions options))) :
    Outcome P (cutShort kMsgDSetOptions [.vector 4 []] r.stream) r r.setOptions := by
  refine outcome_of_read hP (.refl r) hr rfl rfl (fun q h => by simp only [setOptions, h]) fun args' s' hread hkind h => ?_
  simp only [List.map_eq_cons_iff, List.map_eq_nil_iff, Arg.kind_eq_vector] at hkind
  obtain ⟨-, -, rfl, ⟨options, rfl⟩, rfl⟩ := hkind
  simp only [setOptions, h]
  split
  · exact .refl _
  · exact (onward_call (hc _) _).trans (onward_applyOptions hP _ _)

theorem onward_queryInfo (hshape : P (.call .getShape)) (hpos : P (.call .getCursorPos)) (a : Answers) (r : ProxyRun) :
    Onward P r (r.queryInfo a) :=
  ((onward_call hshape r).trans (onward_call hpos _)).trans (onward_write hP _ _ _)

theorem onward_infoAcknowledgment (r : ProxyRun) : Onward P r r.infoAcknowledgment := onward_update hP r (by rfl)

theorem outcome_secureInputNotification {r : ProxyRun} (hr : r.thrown = none) :
    Outcome P (cutShort kMsgDSecureInputNotification [.string []] r.stream) r r.secureInputNotification := by
  refine outcome_of_read hP (.refl r) hr rfl rfl (fun q h => by simp only [secureInputNotification, h])
    fun args' s' hread hkind h => ?_
  simp only [secureInputNotification, h]
  exact .refl _

theorem onward_dragInfo (r : ProxyRun) : Onward P r r.dragInfo := by
  have hlength := r.proxy.drop.length_onDragInfo_le r.stream
  unfold dragInfo
  split
  next h =>
    rw [h] at hlength
    exact (onward_read hP r hlength).trans (onward_update hP _ (by rfl))
  next h =>
    rw [h] at hlength
    exact ((onward_read hP r hlength).trans (onward_update hP _ (by rfl))).trans (onward_throw _ _)

theorem onward_fileChunk (hc : ∀ paths, P (.call (.offerReceivedFiles paths))) (a : Answers) (r : ProxyRun) :
    Onward P r (r.fileChunk a) := by
  have hlength := r.proxy.drop.length_onFileChunk_le a.disk r.stream
  unfold fileChunk
  split
  next h =>
    rw [h] at hlength
    dsimp only
    split
    · exact ((onward_read hP r hlength).trans (onward_update hP _ (by rfl))).trans (onward_call (hc _) _)
    · exact (onward_read hP r hlength).trans (onward_update hP _ (by rfl))
  next h =>
    rw [h] at hlength
    exact ((onward_read hP r hlength).trans (onward_update hP _ (by rfl))).trans (onward_throw _ _)

theorem outcome_setServerLanguages {r : ProxyRun} (hr : r.thrown = none) :
    Outcome P (cutShort kMsgDLanguageSynchronisation [.string []] r.stream) r r.setServerLanguages := by
  refine outcome_of_read hP (.refl r) hr rfl rfl (fun q h => by simp only [setServerLanguages, h])
    fun args' s' hread hkind h => ?_
  simp only [List.map_eq_cons_iff, List.map_eq_nil_iff, Arg.kind_eq_string] at hkind
  obtain ⟨-, -, rfl, ⟨serverLayout, rfl⟩, rfl⟩ := hkind
  simp only [setServerLanguages, h]
  exact onward_update hP _ (by rfl)

theorem onward_echoKeepAlive (r : ProxyRun) : Onward P r r.echoKeepAlive :=
  (onward_write hP r _ _).trans (onward_update hP _ (by rfl))

theorem onward_readCode (r : ProxyRun) : Onward P r r.readCode.2 := onward_read hP r (r.stream.length_read_le 4)

theorem onward_endOfBatch (hmove : ∀ x y, P (.call (.mouseMove x y)))
    (hrel : ∀ dx dy, P (.call (.mouseRelativeMove dx dy))) (r : ProxyRun) : Onward P r r.endOfBatch := by
  unfold endOfBatch
  split
  · exact ((onward_update hP r (by rfl)).trans (onward_write hP _ _ _)).trans (onward_flushCompressedMouse hP hmove hrel _)
  · exact onward_flushCompressedMouse hP hmove hrel r

end

end ProxyRun
end Synergy
