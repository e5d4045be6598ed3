import Synergy.Clipboard.Clipboard
import Synergy.FileTransfer.FileTransferReceiver
import Synergy.Input.InputValidator

/-! The client's end of the connection to the server: its state, what it can do to the
stream and to the client, and a record of all of it in the order it was done. -/
namespace Synergy
open ProtocolUtil

inductive ConnectionRefusal
  | incompatibleVersion
  | alreadyConnected
  | unknownClient
  | protocolError
  deriving DecidableEq, Repr

inductive ClientCall
  | disconnect (msg : Option String)
  | refuseConnection (reason : ConnectionRefusal) (msg : String)
  | handshakeComplete
  | offerReceivedFiles (paths : List Bytes)
  | getMaximumClipboardReceiveSizeBytes
  | getShape
  | getCursorPos
  | enter (xAbs yAbs : Int) (seqNum : Nat) (mask : KeyModifierMask) (forScreensaver : Bool)
  | leave
  | setClipboard (id : Nat) (clipboard : Clipboard)
  | grabClipboard (id : Nat)
  | keyDown (id : KeyID) (mask : KeyModifierMask) (button : Nat) (lang : Bytes)
  | keyRepeat (id : KeyID) (mask : KeyModifierMask) (count button : Nat) (lang : Bytes)
  | keyUp (id : KeyID) (mask : KeyModifierMask) (button : Nat)
  | mouseDown (id : ButtonID)
  | mouseUp (id : ButtonID)
  | mouseMove (xAbs yAbs : Int)
  | mouseRelativeMove (xRel yRel : Int)
  | mouseWheel (xDelta yDelta : Int)
  | screensaver (activate : Bool)
  | resetOptions
  | setOptions (options : List Nat)

/-- A thing the proxy does: to the stream, to its own members, to the client. -/
inductive Effect
  | read
  | write (message : Bytes)
  | update
  | call (c : ClientCall)

/-- The parser that the next message goes to. -/
inductive MessageParser
  | handshake
  | message
  deriving DecidableEq, Repr

/-- Mouse motion that is held back while more input follows. -/
structure CompressedMouse where
  compressMouse : Bool := false
  compressMouseRelative : Bool := false
  xMouse : Int := 0
  yMouse : Int := 0
  dxMouse : Int := 0
  dyMouse : Int := 0
  deriving DecidableEq, Repr

/-- Milliseconds between keep alives, before an option says otherwise. -/
def kKeepAliveRate : Nat := 3000

/-- The members of the proxy. The timer for keep alives is known by its rate, the layout
manager by the layouts of the server. -/
structure ServerProxy where
  parser : MessageParser := .handshake
  inputValidator : InputValidator := {}
  seqNum : Nat := 0
  mouse : CompressedMouse := {}
  ignoreMouse : Bool := false
  modifierTranslationTable : KeyModifierID → KeyModifierID := id
  keepAliveRate : Nat := kKeepAliveRate
  needNoopReply : Bool := false
  serverLayout : Bytes := []
  remoteLayouts : Bytes := []
  isUserNotifiedAboutLayoutSyncError : Bool := false
  clipboardDataCached : Bytes := []
  clipboardChunkState : ClipboardChunkAssemblyState := {}
  drop : Drop

/-- What the surroundings answer while one message is handled: the clock, the client, the
layout manager, the disk, and whether the stream has more input. -/
structure Answers where
  now : Nat := 0
  shape : Int × Int × Int × Int := (0, 0, 0, 0)
  cursorPos : Int × Int := (0, 0)
  maximumClipboardReceiveSize : Nat := 0
  isLayoutInstalled : Bytes → Bool := fun _ => true
  disk : Disk := {}
  isReady : IStream → Bool := IStream.isReady

/-- The proxy, its stream, and all it has done so far; a handler that has thrown does
nothing more. -/
structure ProxyRun where
  proxy : ServerProxy
  stream : IStream
  effects : List Effect := []
  thrown : Option ReadError := none

namespace ProxyRun

def call (r : ProxyRun) (c : ClientCall) : ProxyRun := { r with effects := r.effects ++ [.call c] }

def write (r : ProxyRun) (fmt : Bytes) (args : List Arg) : ProxyRun :=
  { r with effects := r.effects ++ [.write ((writef fmt args).toOption.getD [])] }

def update (r : ProxyRun) (f : ServerProxy → ServerProxy) : ProxyRun :=
  { r with proxy := f r.proxy, effects := r.effects ++ [.update] }

/-- The stream as a read has left it. -/
def read (r : ProxyRun) (s : IStream) : ProxyRun := { r with stream := s, effects := r.effects ++ [.read] }

def throw (r : ProxyRun) (e : ReadError) : ProxyRun := { r with thrown := some e }

/-- Reads by a format, or disconnects when the stream ends early. -/
def readOrDisconnect (r : ProxyRun) (fmt : Bytes) (args : List Arg) : Option (List Arg) × ProxyRun :=
  match readf (fmt.drop 4) args r.stream with
  | (.ok (some args), s) => (some args, r.read s)
  | (.ok none, s) => (none, (r.read s).call (.disconnect (some "truncated message")))
  | (.error e, s) => (none, (r.read s).throw e)

end ProxyRun
end Synergy

/-! The messages from the server: what the client's end does for each of them. -/
namespace Synergy
open ProtocolUtil InputValidator

namespace ServerProxy

/-- The keys of a modifier, on the left and on the right. -/
def translationTable : KeyModifierID → KeyID × KeyID
  | 1 => (kKeyShift_L, kKeyShift_R)
  | 2 => (kKeyControl_L, kKeyControl_R)
  | 3 => (kKeyAlt_L, kKeyAlt_R)
  | 4 => (kKeyMeta_L, kKeyMeta_R)
  | 5 => (kKeySuper_L, kKeySuper_R)
  | 6 => (kKeyAltGr, kKeyAltGr)
  | _ => (kKeyNone, kKeyNone)

/-- The modifier that a key is, and whether it is the one on the right. -/
def modifierOfKey (id : KeyID) : Option (KeyModifierID × Bool) :=
  if id = kKeyShift_L then some (kKeyModifierIDShift, false)
  else if id = kKeyShift_R then some (kKeyModifierIDShift, true)
  else if id = kKeyControl_L then some (kKeyModifierIDControl, false)
  else if id = kKeyControl_R then some (kKeyModifierIDControl, true)
  else if id = kKeyAlt_L then some (kKeyModifierIDAlt, false)
  else if id = kKeyAlt_R then some (kKeyModifierIDAlt, true)
  else if id = kKeyAltGr then some (kKeyModifierIDAltGr, true)
  else if id = kKeyMeta_L then some (kKeyModifierIDMeta, false)
  else if id = kKeyMeta_R then some (kKeyModifierIDMeta, true)
  else if id = kKeySuper_L then some (kKeyModifierIDSuper, false)
  else if id = kKeySuper_R then some (kKeyModifierIDSuper, true)
  else none

def translateKey (p : ServerProxy) (id : KeyID) : KeyID :=
  match modifierOfKey id with
  | none => id
  | some (id2, right) =>
    let keys := translationTable (p.modifierTranslationTable id2)
    if right then keys.2 else keys.1

def masks : KeyModifierID → KeyModifierMask
  | 1 => keyModifierShift
  | 2 => keyModifierControl
  | 3 => keyModifierAlt
  | 4 => keyModifierMeta
  | 5 => keyModifierSuper
  | 6 => keyModifierAltGr
  | _ => 0

def translatedModifiers : KeyModifierMask :=
  keyModifierShift ||| keyModifierControl ||| keyModifierAlt ||| keyModifierMeta ||| keyModifierSuper |||
    keyModifierAltGr

def translateModifierMask (p : ServerProxy) (mask : KeyModifierMask) : KeyModifierMask :=
  let mapped (modifier : KeyModifierMask) (id : KeyModifierID) : KeyModifierMask :=
    if mask &&& modifier ≠ 0 then masks (p.modifierTranslationTable id) else 0
  (mask &&& ~~~translatedModifiers) ||| mapped keyModifierShift kKeyModifierIDShift |||
    mapped keyModifierControl kKeyModifierIDControl ||| mapped keyModifierAlt kKeyModifierIDAlt |||
    mapped keyModifierAltGr kKeyModifierIDAltGr ||| mapped keyModifierMeta kKeyModifierIDMeta |||
    mapped keyModifierSuper kKeyModifierIDSuper

/-- The modifier that an option maps. -/
def mappedModifier (option : OptionID) : Option KeyModifierID :=
  if option = kOptionModifierMapForShift then some kKeyModifierIDShift
  else if option = kOptionModifierMapForControl then some kKeyModifierIDControl
  else if option = kOptionModifierMapForAlt then some kKeyModifierIDAlt
  else if option = kOptionModifierMapForAltGr then some kKeyModifierIDAltGr
  else if option = kOptionModifierMapForMeta then some kKeyModifierIDMeta
  else if option = kOptionModifierMapForSuper then some kKeyModifierIDSuper
  else none

end ServerProxy

namespace ProxyRun

def setKeepAliveRate (r : ProxyRun) (rate : Nat) : ProxyRun := r.update fun p => { p with keepAliveRate := rate }

/-- The alarm starts anew. -/
def resetKeepAliveAlarm (r : ProxyRun) : ProxyRun := r.update id

def flushCompressedMouse (r : ProxyRun) : ProxyRun :=
  let r :=
    if r.proxy.mouse.compressMouse then
      (r.update fun p => { p with mouse := { p.mouse with compressMouse := false } }).call
        (.mouseMove r.proxy.mouse.xMouse r.proxy.mouse.yMouse)
    else r
  if r.proxy.mouse.compressMouseRelative then
    ((r.update fun p => { p with mouse := { p.mouse with compressMouseRelative := false } }).call
      (.mouseRelativeMove r.proxy.mouse.dxMouse r.proxy.mouse.dyMouse)).update fun p =>
        { p with mouse := { p.mouse with dxMouse := 0, dyMouse := 0 } }
  else r

def enter (r : ProxyRun) : ProxyRun :=
  match r.readOrDisconnect kMsgCEnter [.int 0, .int 0, .int 0, .int 0] with
  | (some [.int x, .int y, .int seqNum, .int mask], r) =>
    (r.update fun p => { p with
      mouse := { p.mouse with compressMouse := false, compressMouseRelative := false, dxMouse := 0, dyMouse := 0 }
      seqNum := seqNum
      serverLayout := []
      isUserNotifiedAboutLayoutSyncError := false }).call
      (.enter (int16 x) (int16 y) seqNum (BitVec.ofNat 32 mask) false)
  | (_, r) => r

def leave (r : ProxyRun) : ProxyRun := r.flushCompressedMouse.call .leave

/-- Acts on a clipboard chunk that has been assembled. Data that would be stored outside
the formats is undefined; here it gives an empty clipboard. -/
def onClipboardAssembled (r : ProxyRun) (c : ClipboardChunk.Assembled) : ProxyRun :=
  let r := r.update fun p => { p with clipboardDataCached := c.dataCached, clipboardChunkState := c.state }
  match c.transfer with
  | .started | .inProgress => r
  | .finished =>
    (r.call (.setClipboard c.id ((({} : Clipboard).unmarshall c.dataCached 0).getD {}))).update fun p =>
      { p with clipboardDataCached := [] }
  | .error => r.call (.disconnect (some "invalid clipboard data from server"))

def setClipboard (a : Answers) (r : ProxyRun) : ProxyRun :=
  let r := r.call .getMaximumClipboardReceiveSizeBytes
  match ClipboardChunk.assemble r.proxy.clipboardDataCached r.proxy.clipboardChunkState
      a.maximumClipboardReceiveSize r.stream with
  | (.ok c, s) => (r.read s).onClipboardAssembled c
  | (.error e, s) => (r.read s).throw e

def grabClipboard (r : ProxyRun) : ProxyRun :=
  match r.readOrDisconnect kMsgCClipboard [.int 0, .int 0] with
  | (some [.int id, .int _], r) => if kClipboardEnd ≤ id then r else r.call (.grabClipboard id)
  | (_, r) => r

def setActiveServerLanguage (a : Answers) (language : Bytes) (r : ProxyRun) : ProxyRun :=
  if language.isEmpty then r
  else
    let r :=
      if r.proxy.serverLayout ≠ language then
        r.update fun p => { p with isUserNotifiedAboutLayoutSyncError := false, serverLayout := language }
      else r
    if !a.isLayoutInstalled r.proxy.serverLayout then
      if !r.proxy.isUserNotifiedAboutLayoutSyncError then
        r.update fun p => { p with isUserNotifiedAboutLayoutSyncError := true }
      else r
    else r.update fun p => { p with isUserNotifiedAboutLayoutSyncError := false }

/-- The mask without undefined bits, as a 16-bit value. -/
def cleanMask (mask : Nat) : KeyModifierMask := sanitizeModifierMask (BitVec.ofNat 32 mask) &&& 0xFFFF

/-- Calls the client with the translated key unless the limit or the configuration says no. -/
def forwardKey (a : Answers) (id mask : Nat) (forward : KeyID → KeyModifierMask → ClientCall) (r : ProxyRun) :
    ProxyRun :=
  let limited := r.proxy.inputValidator.isRateLimited id a.now
  let r := r.update fun p => { p with inputValidator := limited.2 }
  if limited.1 then r
  else if r.proxy.inputValidator.isBlockedCombination id (cleanMask mask) then r
  else r.call (forward (r.proxy.translateKey id) (r.proxy.translateModifierMask (cleanMask mask)))

def keyDown (a : Answers) (id mask button : Nat) (lang : Bytes) (r : ProxyRun) : ProxyRun :=
  (r.flushCompressedMouse.setActiveServerLanguage a lang).forwardKey a id mask fun id2 mask2 =>
    .keyDown id2 mask2 button lang

def keyRepeat (a : Answers) (r : ProxyRun) : ProxyRun :=
  match r.flushCompressedMouse.readOrDisconnect kMsgDKeyRepeat [.int 0, .int 0, .int 0, .int 0, .string []] with
  | (some [.int id, .int mask, .int count, .int button, .string lang], r) =>
    r.forwardKey a id mask fun id2 mask2 => .keyRepeat id2 mask2 count button lang
  | (_, r) => r

def keyUp (r : ProxyRun) : ProxyRun :=
  match r.flushCompressedMouse.readOrDisconnect kMsgDKeyUp [.int 0, .int 0, .int 0] with
  | (some [.int id, .int mask, .int button], r) =>
    r.call (.keyUp (r.proxy.translateKey id) (r.proxy.translateModifierMask (cleanMask mask)) button)
  | (_, r) => r

def mouseDown (r : ProxyRun) : ProxyRun :=
  match r.flushCompressedMouse.readOrDisconnect kMsgDMouseDown [.int 0] with
  | (some [.int id], r) => r.call (.mouseDown (BitVec.ofNat 8 id))
  | (_, r) => r

def mouseUp (r : ProxyRun) : ProxyRun :=
  match r.flushCompressedMouse.readOrDisconnect kMsgDMouseUp [.int 0] with
  | (some [.int id], r) => r.call (.mouseUp (BitVec.ofNat 8 id))
  | (_, r) => r

/-- A position from the server is held back when more input follows or one is held back already. -/
def onMouseMove (a : Answers) (x y : Int) (r : ProxyRun) : ProxyRun :=
  let ignore := r.proxy.ignoreMouse
  let r :=
    if !ignore && !r.proxy.mouse.compressMouse && a.isReady r.stream then
      r.update fun p => { p with mouse := { p.mouse with compressMouse := true } }
    else r
  if r.proxy.mouse.compressMouse then
    r.update fun p => { p with
      mouse := { p.mouse with compressMouseRelative := false, xMouse := x, yMouse := y, dxMouse := 0, dyMouse := 0 } }
  else if ignore then r
  else r.call (.mouseMove x y)

def mouseMove (a : Answers) (r : ProxyRun) : ProxyRun :=
  match r.readOrDisconnect kMsgDMouseMove [.int 0, .int 0] with
  | (some [.int x, .int y], r) => r.onMouseMove a (int16 x) (int16 y)
  | (_, r) => r

/-- The same for a motion; those held back are added up. -/
def onMouseRelativeMove (a : Answers) (dx dy : Int) (r : ProxyRun) : ProxyRun :=
  let ignore := r.proxy.ignoreMouse
  let r :=
    if !ignore && !r.proxy.mouse.compressMouseRelative && a.isReady r.stream then
      r.update fun p => { p with mouse := { p.mouse with compressMouseRelative := true } }
    else r
  if r.proxy.mouse.compressMouseRelative then
    r.update fun p => { p with
      mouse := { p.mouse with dxMouse := int32 (p.mouse.dxMouse + dx), dyMouse := int32 (p.mouse.dyMouse + dy) } }
  else if ignore then r
  else r.call (.mouseRelativeMove dx dy)

def mouseRelativeMove (a : Answers) (r : ProxyRun) : ProxyRun :=
  match r.readOrDisconnect kMsgDMouseRelMove [.int 0, .int 0] with
  | (some [.int dx, .int dy], r) => r.onMouseRelativeMove a (int16 dx) (int16 dy)
  | (_, r) => r

def mouseWheel (r : ProxyRun) : ProxyRun :=
  match r.flushCompressedMouse.readOrDisconnect kMsgDMouseWheel [.int 0, .int 0] with
  | (some [.int xDelta, .int yDelta], r) => r.call (.mouseWheel (int16 xDelta) (int16 yDelta))
  | (_, r) => r

def screensaver (r : ProxyRun) : ProxyRun :=
  match r.readOrDisconnect kMsgCScreenSaver [.int 0] with
  | (some [.int on], r) => r.call (.screensaver (on != 0))
  | (_, r) => r

def resetOptions (r : ProxyRun) : ProxyRun :=
  ((r.call .resetOptions).setKeepAliveRate kKeepAliveRate).update fun p => { p with modifierTranslationTable := id }

def applyOption (option value : Nat) (r : ProxyRun) : ProxyRun :=
  match ServerProxy.mappedModifier option with
  | some id => r.update fun p => { p with
      modifierTranslationTable := Function.update p.modifierTranslationTable id (min value (kKeyModifierIDLast - 1)) }
  | none => if option = kOptionHeartbeat then r.setKeepAliveRate value else r

/-- The options pair by pair. -/
def applyOptions : List Nat → ProxyRun → ProxyRun
  | option :: value :: options, r => applyOptions options (r.applyOption option value)
  | _, r => r

def setOptions (r : ProxyRun) : ProxyRun :=
  match r.readOrDisconnect kMsgDSetOptions [.vector 4 []] with
  | (some [.vector _ options], r) =>
    if options.length % 2 ≠ 0 then r else (r.call (.setOptions options)).applyOptions options
  | (_, r) => r

/-- A coordinate as it is passed to a formatted write. -/
def toArg (v : Int) : Arg := .int (BitVec.ofInt 32 v).toNat

def queryInfo (a : Answers) (r : ProxyRun) : ProxyRun :=
  let (x, y, w, h) := a.shape
  let (mx, my) := a.cursorPos
  ((r.call .getShape).call .getCursorPos).write kMsgDInfo
    [toArg x, toArg y, toArg w, toArg h, .int 0, toArg mx, toArg my]

def infoAcknowledgment (r : ProxyRun) : ProxyRun := r.update fun p => { p with ignoreMouse := false }

def secureInputNotification (r : ProxyRun) : ProxyRun :=
  (r.readOrDisconnect kMsgDSecureInputNotification [.string []]).2

def dragInfo (r : ProxyRun) : ProxyRun :=
  match r.proxy.drop.onDragInfo r.stream with
  | (.ok _, d, s) => (r.read s).update fun p => { p with drop := d }
  | (.error e, d, s) => ((r.read s).update fun p => { p with drop := d }).throw e

def fileChunk (a : Answers) (r : ProxyRun) : ProxyRun :=
  match r.proxy.drop.onFileChunk a.disk r.stream with
  | (.ok result, d, s) =>
    let r := (r.read s).update fun p => { p with drop := d }
    if result = .finished ∧ d.receiver.writtenFiles.length = d.receiver.acceptedNames.length ∧
        d.receiver.writtenFiles ≠ [] then
      r.call (.offerReceivedFiles d.receiver.writtenFiles)
    else r
  | (.error e, d, s) => ((r.read s).update fun p => { p with drop := d }).throw e

def setServerLanguages (r : ProxyRun) : ProxyRun :=
  match r.readOrDisconnect kMsgDLanguageSynchronisation [.string []] with
  | (some [.string serverLayout], r) => r.update fun p => { p with remoteLayouts := serverLayout }
  | (_, r) => r

def echoKeepAlive (r : ProxyRun) : ProxyRun := (r.write kMsgCKeepAlive []).resetKeepAliveAlarm

inductive ConnectionResult
  | okay
  | unknown
  | disconnect
  deriving DecidableEq, Repr

end ProxyRun
end Synergy

/-! How the messages from the server are told apart, and the loop over those there are. -/
namespace Synergy
open ProtocolUtil
namespace ProxyRun

def recvSetOptions (r : ProxyRun) : ProxyRun :=
  let r := r.setOptions
  if r.thrown.isSome then r
  else (r.update fun p => { p with parser := .message }).call .handshakeComplete

def recvIncompatible (r : ProxyRun) : ProxyRun :=
  match r.readOrDisconnect kMsgEIncompatible [.int 0, .int 0] with
  | (some _, r) => r.call (.refuseConnection .incompatibleVersion "server has incompatible version")
  | (none, r) => r

def parseHandshakeMessage (a : Answers) (code : Bytes) (r : ProxyRun) : ConnectionResult × ProxyRun :=
  if code = codeOf kMsgQInfo then (.okay, r.queryInfo a)
  else if code = codeOf kMsgCInfoAck then (.okay, r.infoAcknowledgment)
  else if code = codeOf kMsgDSetOptions then (.okay, r.recvSetOptions)
  else if code = codeOf kMsgCResetOptions then (.okay, r.resetOptions)
  else if code = codeOf kMsgCKeepAlive then (.okay, r.echoKeepAlive)
  else if code = codeOf kMsgCNoop then (.okay, r)
  else if code = codeOf kMsgCClose then (.disconnect, r.call (.disconnect none))
  else if code = codeOf kMsgEIncompatible then (.disconnect, r.recvIncompatible)
  else if code = codeOf kMsgEBusy then
    (.disconnect, r.call (.refuseConnection .alreadyConnected "server already has a connected client with our name"))
  else if code = codeOf kMsgEUnknown then
    (.disconnect, r.call (.refuseConnection .unknownClient "server refused client with our name"))
  else if code = codeOf kMsgEBad then
    (.disconnect, r.call (.refuseConnection .protocolError "server reported a protocol error"))
  else if code = codeOf kMsgDLanguageSynchronisation then (.okay, r.setServerLanguages)
  else (.unknown, r)

/-- The two messages whose truncation the parser itself reports. -/
def recvKeyDown (a : Answers) (r : ProxyRun) : ConnectionResult × ProxyRun :=
  match r.readOrDisconnect kMsgDKeyDown [.int 0, .int 0, .int 0] with
  | (some [.int id, .int mask, .int button], r) => (.okay, r.keyDown a id mask button [])
  | (_, r) => (.disconnect, r)

def recvKeyDownLang (a : Answers) (r : ProxyRun) : ConnectionResult × ProxyRun :=
  match r.readOrDisconnect kMsgDKeyDownLang [.int 0, .int 0, .int 0, .string []] with
  | (some [.int id, .int mask, .int button, .string lang], r) => (.okay, r.keyDown a id mask button lang)
  | (_, r) => (.disconnect, r)

/-- Runs the handler of a message. -/
def runHandler (a : Answers) (code : Bytes) (r : ProxyRun) : ConnectionResult × ProxyRun :=
  if code = codeOf kMsgDMouseMove then (.okay, r.mouseMove a)
  else if code = codeOf kMsgDDragInfo then (.okay, r.dragInfo)
  else if code = codeOf kMsgDFileTransfer then (.okay, r.fileChunk a)
  else if code = codeOf kMsgDMouseRelMove then (.okay, r.mouseRelativeMove a)
  else if code = codeOf kMsgDMouseWheel then (.okay, r.mouseWheel)
  else if code = codeOf kMsgDKeyDown then r.recvKeyDown a
  else if code = codeOf kMsgDKeyDownLang then r.recvKeyDownLang a
  else if code = codeOf kMsgDKeyUp then (.okay, r.keyUp)
  else if code = codeOf kMsgDMouseDown then (.okay, r.mouseDown)
  else if code = codeOf kMsgDMouseUp then (.okay, r.mouseUp)
  else if code = codeOf kMsgDKeyRepeat then (.okay, r.keyRepeat a)
  else if code = codeOf kMsgCKeepAlive then (.okay, r.echoKeepAlive)
  else if code = codeOf kMsgCNoop then (.okay, r)
  else if code = codeOf kMsgCEnter then (.okay, r.enter)
  else if code = codeOf kMsgCLeave then (.okay, r.leave)
  else if code = codeOf kMsgCClipboard then (.okay, r.grabClipboard)
  else if code = codeOf kMsgCScreenSaver then (.okay, r.screensaver)
  else if code = codeOf kMsgQInfo then (.okay, r.queryInfo a)
  else if code = codeOf kMsgCInfoAck then (.okay, r.infoAcknowledgment)
  else if code = codeOf kMsgDClipboard then (.okay, r.setClipboard a)
  else if code = codeOf kMsgCResetOptions then (.okay, r.resetOptions)
  else if code = codeOf kMsgDSetOptions then (.okay, r.setOptions)
  else if code = codeOf kMsgDSecureInputNotification then (.okay, r.secureInputNotification)
  else if code = codeOf kMsgCClose then (.disconnect, r.call (.disconnect none))
  else if code = codeOf kMsgEBad then (.disconnect, r.call (.disconnect (some "server reported a protocol error")))
  else (.unknown, r)

/-- After a message that is not the last one, a reply is due for the batch. -/
def parseMessage (a : Answers) (code : Bytes) (r : ProxyRun) : ConnectionResult × ProxyRun :=
  match r.runHandler a code with
  | (.okay, r) => (.okay, if r.thrown.isSome then r else r.update fun p => { p with needNoopReply := true })
  | other => other

def parse (a : Answers) (code : Bytes) (r : ProxyRun) : ConnectionResult × ProxyRun :=
  match r.proxy.parser with
  | .handshake => r.parseHandshakeMessage a code
  | .message => r.parseMessage a code

/-- The next message code, or as much of it as one read finds. -/
def readCode (r : ProxyRun) : Bytes × ProxyRun := ((r.stream.read 4).1, r.read (r.stream.read 4).2)

/-- One message: its handler, with what is thrown caught, and the next code unless the
loop is left. -/
def turn (a : Answers) (code : Bytes) (r : ProxyRun) : Option Bytes × ProxyRun :=
  let (result, r) := r.parse a code
  match r.thrown with
  | some _ => (none, (r.write kMsgEBad []).call (.disconnect (some "invalid message from server")))
  | none =>
    match result with
    | .okay => let (code, r) := r.readCode; (some code, r)
    | .unknown => let (code, r) := (r.read r.stream.discard).readCode; (some code, r)
    | .disconnect => (none, r)

/-- What is done when there is no more input. -/
def endOfBatch (r : ProxyRun) : ProxyRun :=
  (if r.proxy.needNoopReply then (r.update fun p => { p with needNoopReply := false }).write kMsgCNoop []
    else r).flushCompressedMouse

/-- The loop, from the code that was read last; `fuel` bounds the messages. -/
def handleLoop : Nat → (Nat → Answers) → Bytes → ProxyRun → ProxyRun
  | 0, _, _, r => r
  | fuel + 1, answers, code, r =>
    if code = [] then r.endOfBatch
    else if code.length ≠ 4 then r.call (.disconnect (some "incomplete message from server"))
    else
      match r.turn (answers 0) code with
      | (none, r) => r
      | (some code, r) => handleLoop fuel (fun n => answers (n + 1)) code r

/-- Handles the messages there are, each with the answers at its time. -/
def handleData (answers : Nat → Answers) (r : ProxyRun) : ProxyRun :=
  let (code, r') := r.readCode
  handleLoop (r.stream.flatten.length + 1) answers code r'

end ProxyRun
end Synergy
