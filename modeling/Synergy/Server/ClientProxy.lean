import Synergy.Clipboard.Clipboard
import Synergy.FileTransfer.FileTransferReceiver

/-! The server's end of the connection to a client that speaks protocol 1.5 or later: the
messages it takes in, and how they are told apart. Heartbeat timers are left out. -/
namespace Synergy
open ProtocolUtil

inductive ProxyVersion
  | v1_5
  | v1_6
  | v1_7
  | v1_8
  deriving DecidableEq, Repr

structure ClientInfo where
  x : Int := 0
  y : Int := 0
  w : Int := 0
  h : Int := 0
  mx : Int := 0
  my : Int := 0
  deriving DecidableEq, Repr

structure ClientClipboard where
  clipboard : Clipboard := {}
  sequenceNumber : Nat := 0
  dirty : Bool := true

/-- What the proxy reports to the rest of the server. -/
inductive ProxyEvent
  | ready
  | screenShapeChanged
  | clipboardGrabbed (id sequence : Nat)
  | clipboardChanged (id sequence : Nat)
  | disconnected
  deriving DecidableEq, Repr

/-- The parser that the next message goes to. -/
inductive ProxyParser
  | handshake
  | message
  deriving DecidableEq, Repr

structure ClientProxy where
  version : ProxyVersion
  maximumClipboardSizeBytes : Nat
  parser : ProxyParser := .handshake
  info : ClientInfo := {}
  clipboard : Nat → ClientClipboard := fun _ => {}
  clipboardDataCached : Bytes := []
  clipboardChunkState : ClipboardChunkAssemblyState := {}
  events : List ProxyEvent := []
  sent : List Bytes := []

namespace ClientProxy

def addEvent (p : ClientProxy) (event : ProxyEvent) : ClientProxy := { p with events := p.events ++ [event] }

def disconnect (p : ClientProxy) : ClientProxy := p.addEvent .disconnected

/-- Takes over a client's shape, with the cursor in the middle when it is outside. -/
def acceptInfo (p : ClientProxy) (x y w h mx my : Int) : Bool × ClientProxy :=
  if w ≤ 0 ∨ h ≤ 0 then (false, p)
  else
    let outside := mx < x ∨ x + w ≤ mx ∨ my < y ∨ y + h ≤ my
    let mx := if outside then int16 (x + w / 2) else mx
    let my := if outside then int16 (y + h / 2) else my
    (true, { p with info := ⟨x, y, w, h, mx, my⟩, sent := p.sent ++ [kMsgCInfoAck] })

def recvInfo (p : ClientProxy) : ReadM (Bool × ClientProxy) := do
  match ← readf (kMsgDInfo.drop 4) [.int 0, .int 0, .int 0, .int 0, .int 0, .int 0, .int 0] with
  | some [.int x, .int y, .int w, .int h, .int _, .int mx, .int my] =>
    return p.acceptInfo (int16 x) (int16 y) (int16 w) (int16 h) (int16 mx) (int16 my)
  | _ => return (false, p)

def recvGrabClipboard (p : ClientProxy) : ReadM (Bool × ClientProxy) := do
  match ← readf (kMsgCClipboard.drop 4) [.int 0, .int 0] with
  | some [.int id, .int sequence] =>
    if kClipboardEnd ≤ id then return (false, p) else return (true, p.addEvent (.clipboardGrabbed id sequence))
  | _ => return (false, p)

/-- Acts on a clipboard chunk that has been assembled. Unmarshalled data that would be
stored outside the formats is undefined; here it changes nothing. -/
def onClipboardAssembled (p : ClientProxy) (r : ClipboardChunk.Assembled) : Bool × ClientProxy :=
  let p := { p with clipboardDataCached := r.dataCached, clipboardChunkState := r.state }
  match r.transfer with
  | .started | .inProgress => (true, p)
  | .error => (false, p)
  | .finished =>
    let old := (p.clipboard r.id).clipboard
    let received : ClientClipboard := { p.clipboard r.id with
      clipboard := (old.unmarshall r.dataCached 0).getD old
      sequenceNumber := r.sequence }
    (true, { p with
      clipboard := Function.update p.clipboard r.id received
      clipboardDataCached := [] }.addEvent (.clipboardChanged r.id r.sequence))

/-- Up to version 1.5 the message is refused as it stands. -/
def recvClipboard (p : ClientProxy) : ReadM (Bool × ClientProxy) :=
  match p.version with
  | .v1_5 => return (false, p)
  | .v1_6 | .v1_7 | .v1_8 => do
    let r ← ClipboardChunk.assemble p.clipboardDataCached p.clipboardChunkState p.maximumClipboardSizeBytes
    return p.onClipboardAssembled r

def fileChunkReceived (p : ClientProxy) : ReadM ClientProxy := return p

def dragInfoReceived (p : ClientProxy) : ReadM ClientProxy := return p

def parseHandshakeMessage (p : ClientProxy) (code : Bytes) : ReadM (Bool × ClientProxy) :=
  if code = codeOf kMsgCNoop then return (true, p)
  else if code = codeOf kMsgDInfo then do
    let (ok, p) ← { p with parser := .message }.recvInfo
    return if ok then (true, p.addEvent .ready) else (false, p)
  else return (false, p)

def parseMessage1_0 (p : ClientProxy) (code : Bytes) : ReadM (Bool × ClientProxy) :=
  if code = codeOf kMsgDInfo then do
    let (ok, p) ← p.recvInfo
    return if ok then (true, p.addEvent .screenShapeChanged) else (false, p)
  else if code = codeOf kMsgCNoop then return (true, p)
  else if code = codeOf kMsgCClipboard then p.recvGrabClipboard
  else if code = codeOf kMsgDClipboard then p.recvClipboard
  else return (false, p)

def parseMessage1_3 (p : ClientProxy) (code : Bytes) : ReadM (Bool × ClientProxy) :=
  if code = codeOf kMsgCKeepAlive then return (true, p) else p.parseMessage1_0 code

def parseMessage (p : ClientProxy) (code : Bytes) : ReadM (Bool × ClientProxy) :=
  if code = codeOf kMsgDFileTransfer then do
    let p ← p.fileChunkReceived
    return (true, p)
  else if code = codeOf kMsgDDragInfo then do
    let p ← p.dragInfoReceived
    return (true, p)
  else p.parseMessage1_3 code

def parse (p : ClientProxy) (code : Bytes) : ReadM (Bool × ClientProxy) :=
  match p.parser with
  | .handshake => p.parseHandshakeMessage code
  | .message => p.parseMessage code

/-- The loop over the messages there are; `fuel` bounds their number. The first part of
the result are the codes that were handed to a parser. -/
def handleLoop : Nat → ClientProxy → IStream → List Bytes × ClientProxy × IStream
  | 0, p, s => ([], p, s)
  | fuel + 1, p, s =>
    let (code, s) := s.read 4
    if code = [] then ([], p, s)
    else if code.length ≠ 4 then ([], p.disconnect, s)
    else
      match p.parse code s with
      | (.error _, s) => ([code], p.disconnect, s)
      | (.ok (handled, p), s) =>
        let (codes, p, s) := handleLoop fuel p (if handled then s else s.discard)
        (code :: codes, p, s)

/-- Every turn of the loop takes at least one byte. -/
def handleData (p : ClientProxy) (s : IStream) : List Bytes × ClientProxy × IStream :=
  handleLoop (s.flatten.length + 1) p s

end ClientProxy
end Synergy
