import Mathlib.Data.List.Basic
import Synergy.Clipboard.ClipboardChunk
import Synergy.Lib.Files
import Synergy.Protocol.ProtocolUtil

/-! Names of transferred files: which of them are safe, and how a list of them travels. -/
namespace Synergy
namespace FileTransferPath

def kMaxFileNameLength : Nat := 255

def kForbiddenCharacters : Bytes := ascii "<>:\"|?*"

def kReserved : List Bytes :=
  ["con", "prn", "aux", "nul", "com1", "com2", "com3", "com4", "com5", "com6", "com7", "com8", "com9",
    "lpt1", "lpt2", "lpt3", "lpt4", "lpt5", "lpt6", "lpt7", "lpt8", "lpt9"].map ascii

def toLowerAscii (text : Bytes) : Bytes :=
  text.map fun c => if byte 'A' ≤ c ∧ c ≤ byte 'Z' then c + 32 else c

/-- Only the part before the first dot is compared. -/
def isReservedDeviceName (loweredName : Bytes) : Bool :=
  kReserved.contains (loweredName.takeWhile (· != byte '.'))

def hasControlCharacter (name : Bytes) : Bool := name.any fun c => c < 0x20 || c == 0x7F

/-- The name itself when it is safe, and an empty name when it is refused. -/
def sanitizeFileName (raw : Bytes) : Bytes :=
  if raw.isEmpty || kMaxFileNameLength < raw.length then []
  else if hasControlCharacter raw then []
  else if raw.contains (byte '/') || raw.contains (byte '\\') then []
  else if raw.contains (byte ':') then []
  else if raw.any kForbiddenCharacters.contains then []
  else if raw = ascii "." ∨ raw = ascii ".." then []
  else if raw.getLast? = some (byte '.') ∨ raw.getLast? = some (byte ' ') then []
  else if isReservedDeviceName (toLowerAscii raw) then []
  else raw

/-- Each name with a NUL behind it. -/
def joinNames (names : List Bytes) : Bytes := names.flatMap (· ++ [0])

/-- The stretches between NULs, the first of them behind what is already read of it. -/
def segments : Bytes → Bytes → List Bytes
  | segment, [] => [segment]
  | segment, c :: payload => if c = 0 then segment :: segments [] payload else segments (segment ++ [c]) payload

def splitNames (payload : Bytes) : List Bytes := (segments [] payload).filter (!·.isEmpty)

/-- A name that is not refused is kept as it is, and has no separator. -/
theorem sanitizeFileName_safe {raw : Bytes} (h : sanitizeFileName raw ≠ []) :
    sanitizeFileName raw = raw ∧ byte '/' ∉ raw ∧ byte '\\' ∉ raw ∧ raw ≠ [] := by
  unfold sanitizeFileName at h ⊢
  by_cases h1 : raw.isEmpty || kMaxFileNameLength < raw.length
  · simp only [if_pos h1, ne_eq, not_true_eq_false] at h
  by_cases h2 : hasControlCharacter raw
  · simp only [if_neg h1, if_pos h2, ne_eq, not_true_eq_false] at h
  by_cases h3 : raw.contains (byte '/') || raw.contains (byte '\\')
  · simp only [if_neg h1, if_neg h2, if_pos h3, ne_eq, not_true_eq_false] at h
  by_cases h4 : raw.contains (byte ':')
  · simp only [if_neg h1, if_neg h2, if_neg h3, if_pos h4, ne_eq, not_true_eq_false] at h
  by_cases h5 : raw.any kForbiddenCharacters.contains
  · simp only [if_neg h1, if_neg h2, if_neg h3, if_neg h4, if_pos h5, ne_eq, not_true_eq_false] at h
  by_cases h6 : raw = ascii "." ∨ raw = ascii ".."
  · simp only [if_neg h1, if_neg h2, if_neg h3, if_neg h4, if_neg h5, if_pos h6, ne_eq, not_true_eq_false] at h
  by_cases h7 : raw.getLast? = some (byte '.') ∨ raw.getLast? = some (byte ' ')
  · simp only [if_neg h1, if_neg h2, if_neg h3, if_neg h4, if_neg h5, if_neg h6, if_pos h7, ne_eq, not_true_eq_false] at h
  by_cases h8 : isReservedDeviceName (toLowerAscii raw)
  · simp only [if_neg h1, if_neg h2, if_neg h3, if_neg h4, if_neg h5, if_neg h6, if_neg h7, if_pos h8, ne_eq, not_true_eq_false] at h
  rw [if_neg h1, if_neg h2, if_neg h3, if_neg h4, if_neg h5, if_neg h6, if_neg h7, if_neg h8]
  simp only [Bool.or_eq_true, List.contains_iff_mem, not_or, List.isEmpty_iff, decide_eq_true_eq] at h1 h3
  exact ⟨rfl, h3.1, h3.2, h1.1⟩

private theorem segments_name {name : Bytes} (h : (0 : UInt8) ∉ name) (segment payload : Bytes) :
    segments segment (name ++ 0 :: payload) = (segment ++ name) :: segments [] payload := by
  induction name generalizing segment with
  | nil => simp [segments]
  | cons c name ih =>
    have hc : c ≠ 0 := fun hc => h (by simp [hc])
    rw [List.cons_append, segments, if_neg hc, ih fun h0 => h (by simp [h0])]
    simp

/-- Names without NULs come back, the empty ones aside. -/
theorem splitNames_joinNames {names : List Bytes} (h : ∀ name ∈ names, (0 : UInt8) ∉ name) :
    splitNames (joinNames names) = names.filter (!·.isEmpty) := by
  have hseg : segments [] (joinNames names) = names ++ [[]] := by
    induction names with
    | nil => rfl
    | cons name names ih =>
      have hjoin : joinNames (name :: names) = name ++ 0 :: joinNames names := by simp [joinNames]
      rw [hjoin, segments_name (h name (by simp)), ih fun n hn => h n (by simp [hn])]
      rfl
  rw [splitNames, hseg]
  simp

end FileTransferPath
end Synergy

/-! The chunks of a file transfer and their assembly. -/
namespace Synergy
open ProtocolUtil

structure FileTransferAssemblyState where
  expectedSize : Nat := 0
  active : Bool := false
  deriving DecidableEq, Repr

namespace FileChunk

def chunkSize : Nat := protocolMaxStringLength

/-- The outcome of one chunk: what the caller is told and what is kept for the next. -/
structure Assembled where
  transfer : TransferState
  dataCached : Bytes
  state : FileTransferAssemblyState
  deriving DecidableEq, Repr

def wouldExceed (currentSize extraSize limit : Nat) : Bool :=
  limit < currentSize || limit - currentSize < extraSize

/-- Takes in a chunk that has been read. -/
def accept (dataCached : Bytes) (state : FileTransferAssemblyState) (maxFileSize mark : Nat) (data : Bytes) : Assembled :=
  let error : Assembled := ⟨.error, [], {}⟩
  if mark = ChunkType.dataStart.toNat then
    if state.active then error
    else
      match toULongLong (data.map fun b => Char.ofNat b.toNat) with
      | none => error
      | some declared =>
        if maxFileSize < declared then error
        else ⟨.started, [], { expectedSize := declared, active := true }⟩
  else if mark = ChunkType.dataChunk.toNat then
    if !state.active then error
    else if wouldExceed dataCached.length data.length state.expectedSize then error
    else ⟨.inProgress, dataCached ++ data, state⟩
  else if mark = ChunkType.dataEnd.toNat then
    if !state.active then error
    else if state.expectedSize ≠ dataCached.length then error
    else ⟨.finished, dataCached, { state with active := false }⟩
  else error

/-- Reads the body of a chunk message and takes it in. -/
def assemble (dataCached : Bytes) (state : FileTransferAssemblyState) (maxFileSize : Nat) : ReadM Assembled := do
  match ← readf (kMsgDFileTransfer.drop 4) [.int 0, .string []] with
  | some [.int mark, .string data] => return accept dataCached state maxFileSize mark data
  | _ => return ⟨.error, [], {}⟩

/-- What is kept between chunks: a transfer in flight is within its declared size, and
that within the limit. -/
def Bounded (maxFileSize : Nat) (dataCached : Bytes) (state : FileTransferAssemblyState) : Prop :=
  state.active → state.expectedSize ≤ maxFileSize ∧ dataCached.length ≤ state.expectedSize

/-- A chunk keeps the bounds, and a finished file is within the limit. -/
theorem accept_bounded {maxFileSize mark : Nat} {dataCached data : Bytes} {state : FileTransferAssemblyState}
    (h : Bounded maxFileSize dataCached state) :
    let r := accept dataCached state maxFileSize mark data
    Bounded maxFileSize r.dataCached r.state ∧ (r.transfer = .finished → r.dataCached.length ≤ maxFileSize) := by
  unfold accept
  split
  · split
    next => simp [Bounded]
    next =>
      split
      next => simp [Bounded]
      next declared hd =>
        split
        next => simp [Bounded]
        next hle => simpa [Bounded] using hle
  · split
    · split
      next => simp [Bounded]
      next hactive =>
        have hb := h (by simpa using hactive)
        split
        next => simp [Bounded]
        next hfit =>
          simp only [wouldExceed, Bool.or_eq_true, decide_eq_true_eq, not_or, not_lt] at hfit
          refine ⟨fun _ => ⟨hb.1, ?_⟩, by simp⟩
          simp only [List.length_append]
          omega
    · split
      · split
        next => simp [Bounded]
        next hactive =>
          have hb := h (by simpa using hactive)
          split
          next => simp [Bounded]
          next hsize => exact ⟨by simp [Bounded], fun _ => hb.2.trans hb.1⟩
      · simp [Bounded]

theorem assemble_bounded {maxFileSize : Nat} {dataCached : Bytes} {state : FileTransferAssemblyState} {s s' : IStream}
    {r : Assembled} (h : Bounded maxFileSize dataCached state)
    (hr : assemble dataCached state maxFileSize s = (.ok r, s')) :
    Bounded maxFileSize r.dataCached r.state ∧ (r.transfer = .finished → r.dataCached.length ≤ maxFileSize) := by
  have herror : ∀ {s'' : IStream}, (pure ⟨.error, [], {}⟩ : ReadM Assembled) s'' = (.ok r, s') →
      Bounded maxFileSize r.dataCached r.state ∧ (r.transfer = .finished → r.dataCached.length ≤ maxFileSize) := by
    intro s'' heq
    obtain ⟨heq, -⟩ := Prod.mk.inj heq
    rw [← Except.ok.inj heq]
    simp [Bounded]
  obtain ⟨args, s₁, -, hrest⟩ := ReadM.bind_eq_ok hr
  split at hrest
  next mark data =>
    obtain ⟨heq, -⟩ := Prod.mk.inj hrest
    rw [← Except.ok.inj heq]
    exact accept_bounded h
  next => exact herror hrest

end FileChunk
end Synergy

/-! The receiving end of dragged files. The file system and what it answers are explicit:
a map of the files there are, and a record of the answers that do not depend on them. -/
namespace Synergy
open Lib ProtocolUtil

abbrev FileSystem := Files Bytes Bytes

/-- The answers of the system while one file is written: whether the directory can be
made, canonical paths, which free paths can be seen to be free and opened, and whether
writing, linking and copying work. -/
structure Disk where
  makesDirectory : Bool := true
  canonical : Bytes → Option Bytes := some
  probes : Bytes → Bool := fun _ => true
  opens : Bytes → Bool := fun _ => true
  writes : Bool := true
  links : Bool := true
  copies : Bool := true

def kMaxCollisionAttempts : Nat := 100
def kMaxStagingAttempts : Nat := 20

def decimal (n : Nat) : Bytes := (Nat.toDigits 10 n).map byte

/-- The name up to its last dot, and the rest; a dot in front does not count. -/
def splitStemAndExtension (name : Bytes) : Bytes × Bytes :=
  let extension := (name.reverse.takeWhile (· != byte '.')).reverse
  let dot := name.length - extension.length
  if dot ≤ 1 then (name, []) else (name.take (dot - 1), name.drop (dot - 1))

/-- `directory / name` for a relative name. -/
def joinPath (directory name : Bytes) : Bytes :=
  if directory.getLast? = some (byte '/') then directory ++ name else directory ++ byte '/' :: name

/-- The directory part of a path; a file in the root has the root for it. -/
def parentPath (path : Bytes) : Bytes :=
  let slashed := path.reverse.dropWhile (· != byte '/')
  let parent := slashed.dropWhile (· == byte '/')
  if parent.isEmpty then slashed.reverse else parent.reverse

namespace Disk

def pathIsFree (disk : Disk) (fs : FileSystem) (path : Bytes) : Bool := (fs path).isNone && disk.probes path

def openExclusive (disk : Disk) (fs : FileSystem) (path : Bytes) : Option FileSystem :=
  if disk.opens path then fs.create path [] else none

/-- A link when the system can make one, else a copy, and never over an existing file. -/
def publishStagedFile (disk : Disk) (fs : FileSystem) (staging target : Bytes) : Option FileSystem :=
  if disk.links || disk.copies then fs.publish staging target else none

def staysInside (disk : Disk) (directory candidate : Bytes) : Bool :=
  match disk.canonical directory, disk.canonical (parentPath candidate) with
  | some base, some parent =>
    base.isPrefixOf parent &&
      (parent.length == base.length || parent[base.length]? == some (byte '/') || base.getLast? == some (byte '/'))
  | _, _ => false

end Disk

structure FileTransferOptions where
  dropDirectory : Bytes
  maxFileSize : Nat := 64 * 1024 * 1024
  maxFileCount : Nat := 32
  maxTotalBytes : Nat := 256 * 1024 * 1024
  enabled : Bool := true
  deriving DecidableEq, Repr

structure FileTransferSettings where
  enabled : Bool
  dropDirectory : Bytes
  maxFileSizeMb : Nat
  maxFileCount : Nat

def bytesFromMegabyteSetting (megabytes fallback : Nat) : Nat :=
  if megabytes = 0 then fallback else min megabytes (64 * 1024) * 1024 * 1024

/-- The options that the client builds its receiver with. -/
def FileTransferSettings.receiverOptions (config : FileTransferSettings) : FileTransferOptions :=
  let options : FileTransferOptions := { dropDirectory := config.dropDirectory, enabled := config.enabled }
  { options with
    maxFileSize :=
      if config.maxFileSizeMb > 0 then bytesFromMegabyteSetting config.maxFileSizeMb options.maxFileSize
      else options.maxFileSize
    maxFileCount := if config.maxFileCount > 0 then min config.maxFileCount 4096 else options.maxFileCount }

structure FileTransferReceiver where
  options : FileTransferOptions
  acceptedNames : List Bytes := []
  writtenFiles : List Bytes := []
  nextName : Nat := 0
  refused : Nat := 0
  totalWritten : Nat := 0
  buffer : Bytes := []
  state : FileTransferAssemblyState := {}
  deriving DecidableEq, Repr

/-- A file stored in the current drag: the name it was announced under, its path and content. -/
structure StoredFile where
  name : Bytes
  path : Bytes
  content : Bytes
  deriving DecidableEq, Repr

/-- The receiver with the file system, all the paths it has created so far and the files
it has stored since the last announce. -/
structure Drop where
  receiver : FileTransferReceiver
  files : FileSystem
  created : List Bytes := []
  stored : List StoredFile := []

namespace FileTransferReceiver

def reset (r : FileTransferReceiver) : FileTransferReceiver :=
  { r with acceptedNames := [], writtenFiles := [], totalWritten := 0, nextName := 0, buffer := [], state := {} }

def refuse (r : FileTransferReceiver) (n : Nat) : FileTransferReceiver := { r with refused := r.refused + n }

/-- Acts on an announce that has been read. -/
def announce (r : FileTransferReceiver) (payload : Bytes) : Bool × FileTransferReceiver :=
  if !r.options.enabled then (false, r)
  else if r.options.dropDirectory.isEmpty then (false, r)
  else
    let names := FileTransferPath.splitNames payload
    if names.isEmpty then (false, r)
    else if r.options.maxFileCount < names.length then (false, r.refuse names.length)
    else
      let safe := (names.map FileTransferPath.sanitizeFileName).filter (!·.isEmpty)
      let r := (r.refuse (names.length - safe.length))
      (!(r.acceptedNames ++ safe).isEmpty, { r with acceptedNames := r.acceptedNames ++ safe })

/-- The paths for a name in the order they are tried: as it is, then with a number. -/
def targetPaths (directory safeName : Bytes) : List Bytes :=
  let (stem, extension) := splitStemAndExtension safeName
  let numbered := (List.range kMaxCollisionAttempts).map fun n =>
    stem ++ ascii " (" ++ decimal (n + 1) ++ ascii ")" ++ extension
  (safeName :: numbered).map (joinPath directory)

def uniqueTargetPath (disk : Disk) (fs : FileSystem) (directory safeName : Bytes) : Option Bytes :=
  (targetPaths directory safeName).find? (disk.pathIsFree fs)

def stagingPaths (target : Bytes) : List Bytes :=
  (target ++ ascii ".part") ::
    (List.range kMaxStagingAttempts).map fun n => target ++ ascii "." ++ decimal (n + 1) ++ ascii ".part"

/-- The first staging file that can be opened, and the file system with it. -/
def openStaging (disk : Disk) (fs : FileSystem) (target : Bytes) : Option (Bytes × FileSystem) :=
  (stagingPaths target).findSome? fun staging => (disk.openExclusive fs staging).map fun fs => (staging, fs)

end FileTransferReceiver

namespace Drop
open FileTransferReceiver

def refuse (d : Drop) : Drop := { d with receiver := d.receiver.refuse 1 }

/-- Stages the content and publishes it at the target. -/
def publish (d : Drop) (disk : Disk) (name target content : Bytes) : Drop :=
  match openStaging disk d.files target with
  | none => d.refuse
  | some (staging, fs) =>
    let d := { d with created := d.created ++ [staging] }
    if !disk.writes then { d.refuse with files := Files.remove fs staging }
    else
      let written := Function.update fs staging (some content)
      match disk.publishStagedFile written staging target with
      | none => { d.refuse with files := Files.remove written staging }
      | some fs =>
        { d with
          files := fs
          created := d.created ++ [target]
          stored := d.stored ++ [⟨name, target, content⟩]
          receiver := { d.receiver with
            totalWritten := (d.receiver.totalWritten + content.length) % 2 ^ 64
            writtenFiles := d.receiver.writtenFiles ++ [target] } }

/-- Writes a file whose name has been taken off the list. -/
def store (d : Drop) (disk : Disk) (safeName content : Bytes) : Drop :=
  let options := d.receiver.options
  if options.maxTotalBytes < (d.receiver.totalWritten + content.length) % 2 ^ 64 then d.refuse
  else if !disk.makesDirectory then d.refuse
  else
    match uniqueTargetPath disk d.files options.dropDirectory safeName with
    | none => d.refuse
    | some target =>
      if !disk.staysInside options.dropDirectory target then d.refuse
      else d.publish disk safeName target content

def writeCurrentFile (d : Drop) (disk : Disk) : Drop :=
  let content := d.receiver.buffer
  let d := { d with receiver := { d.receiver with buffer := [] } }
  if d.receiver.options.dropDirectory.isEmpty then d.refuse
  else
    match d.receiver.acceptedNames[d.receiver.nextName]? with
    | none => d.refuse
    | some safeName =>
      { d with receiver := { d.receiver with nextName := d.receiver.nextName + 1 } }.store disk safeName content

/-- Reads an announce and acts on it; whatever it says, it ends the previous drag. -/
def onDragInfo (d : Drop) (s : IStream) : Except ReadError Bool × Drop × IStream :=
  let d := { d with receiver := d.receiver.reset, stored := [] }
  match readf (kMsgDDragInfo.drop 4) [.int 0, .string []] s with
  | (.error e, s) => (.error e, d, s)
  | (.ok (some [.int _, .string payload]), s) =>
    let (accepted, receiver) := d.receiver.announce payload
    (.ok accepted, { d with receiver := receiver }, s)
  | (.ok _, s) => (.ok false, d, s)

/-- Acts on a chunk that has been assembled. -/
def onAssembled (d : Drop) (disk : Disk) (r : FileChunk.Assembled) : TransferState × Drop :=
  let d := { d with receiver := { d.receiver with buffer := r.dataCached, state := r.state } }
  if !d.receiver.options.enabled then (.error, { d with receiver := { d.receiver with buffer := [] } })
  else
    match r.transfer with
    | .started => (.started, d)
    | .inProgress => (.inProgress, d)
    | .finished => (.finished, d.writeCurrentFile disk)
    | .error => (.error, { d with receiver := { (d.receiver.refuse 1) with buffer := [] } })

def onFileChunk (d : Drop) (disk : Disk) (s : IStream) : Except ReadError TransferState × Drop × IStream :=
  match FileChunk.assemble d.receiver.buffer d.receiver.state d.receiver.options.maxFileSize s with
  | (.error e, s) => (.error e, d, s)
  | (.ok r, s) =>
    let (result, d) := d.onAssembled disk r
    (.ok result, d, s)

end Drop
end Synergy
